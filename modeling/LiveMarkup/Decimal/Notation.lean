import LiveMarkup.Decimal.Shortest

/-!
# Numbers as text

Doubles are written with the fewest digits that read back, in two notations that differ in three
decisions, kept in one record:

* `plain` never uses an exponent and writes whole numbers without a point;
* `debug` writes a whole number with the point and one zero, and numbers from ten to the sixteenth on
  or below one ten-thousandth with an exponent.
-/

namespace LiveMarkup.Decimal

/-- The decisions in which notations for numbers differ. -/
structure Style where
  /-- Whether a whole number written positionally ends in a point and a zero. -/
  pointZero : Bool
  /-- Decimal exponents of the leading digit that are written positionally. -/
  positional : Int → Bool

/-- Digits alone, as many as the number has. -/
def Style.plain : Style where
  pointZero := false
  positional _ := true

/-- The form in which values are shown to a person. -/
def Style.debug : Style where
  pointZero := true
  positional e := -4 ≤ e && e < 16

/-- The decimal written positionally. -/
def positionalText (pointZero : Bool) (d : Numeral) : String :=
  let digits := Nat.toDigits 10 d.digits
  if 0 ≤ d.exponent then
    String.ofList (digits ++ List.replicate d.exponent.toNat '0')
      ++ (if pointZero then ".0" else "")
  else
    let places := (-d.exponent).toNat
    let padded := List.replicate (places + 1 - digits.length) '0' ++ digits
    let whole := padded.length - places
    String.ofList (padded.take whole ++ '.' :: padded.drop whole)

/-- The decimal written as one digit before the point and an exponent of ten. -/
def scientificText (d : Numeral) : String :=
  let digits := Nat.toDigits 10 d.digits
  let exponent := d.exponent + digits.length - 1
  let mantissa := match digits with
    | [] => []
    | [c] => [c]
    | c :: rest => c :: '.' :: rest
  String.ofList (mantissa ++ ['e']) ++ toString exponent

/-- A decimal that has no zeros at its end, in the given notation. -/
def Style.write (style : Style) (d : Numeral) : String :=
  if style.positional (d.exponent + (Nat.toDigits 10 d.digits).length - 1) then
    positionalText style.pointZero d
  else scientificText d

/-- A double in the given notation. A NaN has no sign. -/
def Style.text (style : Style) (x : Double) : String :=
  let sign := if x.negative then "-" else ""
  match x.kind with
  | .nan => "NaN"
  | .infinite => sign ++ "inf"
  | .zero => sign ++ (if style.pointZero then "0.0" else "0")
  | .finite magnitude => sign ++ style.write magnitude.shortest

end LiveMarkup.Decimal
