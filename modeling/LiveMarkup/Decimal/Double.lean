/-!
# Double-precision numbers

A double is kept as its 64 bits, so that two doubles are the same value of this type exactly when
they are the same pattern. The comparison of numbers is another matter (`Double.equals`): there a NaN
differs from everything and the two zeros agree.
-/

namespace LiveMarkup.Decimal

/-- A number in the 64-bit binary interchange format. -/
structure Double where
  bits : UInt64
  deriving DecidableEq, Repr

/-- A finite number other than zero without its sign: `significand * 2 ^ exponent`. -/
structure Magnitude where
  significand : Nat
  exponent : Int
  /-- Whether the next smaller number is only half as far away as the next larger one. -/
  narrowBelow : Bool
  deriving DecidableEq, Repr

/-- What a double stands for, apart from its sign. -/
inductive DoubleKind where
  | nan
  | infinite
  | zero
  | finite (magnitude : Magnitude)
  deriving DecidableEq, Repr

namespace Double

/-- Whether the sign bit is set. -/
def negative (x : Double) : Bool :=
  Nat.pow 2 63 ≤ x.bits.toNat

/-- The eleven bits of the exponent. -/
def exponentField (x : Double) : Nat :=
  x.bits.toNat / Nat.pow 2 52 % Nat.pow 2 11

/-- The fifty-two bits behind the point. -/
def fractionField (x : Double) : Nat :=
  x.bits.toNat % Nat.pow 2 52

/-- What the bits stand for. The least exponent has no hidden bit, and the greatest is not a number
or infinite. -/
def kind (x : Double) : DoubleKind :=
  let e := x.exponentField
  let f := x.fractionField
  if e = Nat.pow 2 11 - 1 then
    if f = 0 then .infinite else .nan
  else if e = 0 then
    if f = 0 then .zero else .finite ⟨f, -1074, false⟩
  else .finite ⟨Nat.pow 2 52 + f, (e : Int) - 1075, f = 0 && 1 < e⟩

/-- Equality of numbers: a NaN equals nothing and the zeros equal each other. -/
def equals (x y : Double) : Bool :=
  match x.kind, y.kind with
  | .nan, _ | _, .nan => false
  | .zero, .zero => true
  | _, _ => x == y

/-- The double with the value of a number in the 32-bit binary interchange format. Every such number
is a double, so nothing is rounded. -/
def ofSingle (bits : UInt32) : Double :=
  let sign := bits.toNat / Nat.pow 2 31 * Nat.pow 2 63
  let e := bits.toNat / Nat.pow 2 23 % Nat.pow 2 8
  let f := bits.toNat % Nat.pow 2 23
  let rest :=
    if e = Nat.pow 2 8 - 1 then (Nat.pow 2 11 - 1) * Nat.pow 2 52 + f * Nat.pow 2 29
    else if e = 0 then
      if f = 0 then 0
      else
        -- `f * 2 ^ -149`, with the leading bit of `f` moved to the hidden place
        let k := f.log2
        (k + 874) * Nat.pow 2 52 + (f - Nat.pow 2 k) * Nat.pow 2 (52 - k)
    else (e + 896) * Nat.pow 2 52 + f * Nat.pow 2 29
  ⟨UInt64.ofNat (sign + rest)⟩

end Double

end LiveMarkup.Decimal
