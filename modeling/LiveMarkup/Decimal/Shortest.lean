import LiveMarkup.Decimal.Double

/-!
# The fewest digits that read back

Reading a decimal number rounds it to the nearest double, so every double stands for an interval of
reals: from halfway to the number below to halfway to the number above, with both ends if the
significand is even. Among the decimals in that interval `shortest` picks one with the fewest digits,
of those the nearest to the number itself, and of two that are equally near the greater one.

All comparisons are between naturals: the interval and the decimal grid are scaled to a common
denominator first.

## Main results

* `readsBack_of_onGrid` — what the search on one grid returns lies in the interval.
-/

namespace LiveMarkup.Decimal

/-- The decimal number `digits * 10 ^ exponent`. -/
structure Numeral where
  digits : Nat
  exponent : Int
  deriving DecidableEq, Repr

namespace Magnitude

/-- The lower end of the interval, in quarters of the last place. -/
def lowEnd (x : Magnitude) : Nat :=
  4 * x.significand - (if x.narrowBelow then 1 else 2)

/-- The upper end of the interval, in quarters of the last place. -/
def highEnd (x : Magnitude) : Nat :=
  4 * x.significand + 2

/-- The size of one step of the grid `10 ^ e`, over the denominator that `x` and the grid share. -/
def gridStep (x : Magnitude) (e : Int) : Nat :=
  Nat.pow 10 e.toNat * Nat.pow 2 (2 - x.exponent).toNat

/-- The size of a quarter of the last place of `x`, over the same denominator. -/
def quarter (x : Magnitude) (e : Int) : Nat :=
  Nat.pow 10 (-e).toNat * Nat.pow 2 (x.exponent - 2).toNat

/-- Whether the decimal is among the reals that round to `x`. -/
def readsBack (x : Magnitude) (d : Numeral) : Bool :=
  let value := d.digits * x.gridStep d.exponent
  let low := x.lowEnd * x.quarter d.exponent
  let high := x.highEnd * x.quarter d.exponent
  if x.significand % 2 = 0 then low ≤ value && value ≤ high else low < value && value < high

/-- The nearest number of the grid `10 ^ e` that reads back, the greater one of two. -/
def onGrid (x : Magnitude) (e : Int) : Option Numeral :=
  let value := 4 * x.significand * x.quarter e
  let below := value / x.gridStep e
  let near : Numeral := ⟨below, e⟩
  let far : Numeral := ⟨below + 1, e⟩
  match x.readsBack near, x.readsBack far with
  | true, true => if 2 * value < (2 * below + 1) * x.gridStep e then some near else some far
  | true, false => some near
  | false, true => some far
  | false, false => none

/-- What the search on one grid returns lies in the interval. -/
theorem readsBack_of_onGrid {x : Magnitude} {e : Int} {d : Numeral} (h : x.onGrid e = some d) :
    x.readsBack d = true := by
  unfold onGrid at h
  simp only at h
  split at h
  · rename_i hn hf
    split at h <;> (simp only [Option.some.injEq] at h; subst h; assumption)
  · rename_i hn _
    simp only [Option.some.injEq] at h; subst h; exact hn
  · rename_i _ hf
    simp only [Option.some.injEq] at h; subst h; exact hf
  · cases h

/-- Raises `k` until `x` is below `10 ^ k`, at most `steps` times. -/
def raiseScale (x : Magnitude) : Nat → Int → Int
  | 0, k => k
  | steps + 1, k =>
    if x.gridStep k ≤ 4 * x.significand * x.quarter k then raiseScale x steps (k + 1) else k

/-- The least `k` with `x < 10 ^ k`: an estimate from the binary logarithm, which is at most four too
low, and the steps that it lacks. -/
def scale (x : Magnitude) : Int :=
  raiseScale x 4 (((x.significand.log2 : Int) + x.exponent) * 30103 / 100000 - 1)

/-- Moves the zeros at the end of the digits into the exponent. -/
def stripZeros : Nat → Numeral → Numeral
  | 0, d => d
  | fuel + 1, d =>
    if d.digits % 10 = 0 then stripZeros fuel ⟨d.digits / 10, d.exponent + 1⟩ else d

/-- The decimal with the fewest digits that reads back as `x`. Seventeen digits always suffice; the
exact value stands behind them so that there is an answer in any case. -/
def shortest (x : Magnitude) : Numeral :=
  let k := x.scale
  let found := (List.range 17).findSome? fun (n : Nat) => x.onGrid (k - 1 - n)
  let exact : Numeral :=
    ⟨x.significand * Nat.pow 2 x.exponent.toNat * Nat.pow 5 (-x.exponent).toNat,
      if x.exponent < 0 then x.exponent else 0⟩
  let d := found.getD exact
  stripZeros (d.digits.log2 + 1) d

end Magnitude

end LiveMarkup.Decimal
