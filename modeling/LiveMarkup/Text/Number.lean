/-!
# Numbers in digits

The value of a text of digits, and the character that has it for a code point.
-/

namespace LiveMarkup.Text

/-- The value of a digit in radix ten or sixteen. -/
def digitValue? (radix : Nat) (c : Char) : Option Nat :=
  let value :=
    if '0' ≤ c && c ≤ '9' then some (c.toNat - '0'.toNat)
    else if 'a' ≤ c && c ≤ 'z' then some (c.toNat - 'a'.toNat + 10)
    else if 'A' ≤ c && c ≤ 'Z' then some (c.toNat - 'A'.toNat + 10)
    else none
  value.filter (· < radix)

/-- The value of digits in the given radix behind those whose value is `high`. -/
def digitsValue? (radix high : Nat) : List Char → Option Nat
  | [] => some high
  | c :: rest =>
    match digitValue? radix c with
    | some digit => digitsValue? radix (high * radix + digit) rest
    | none => none

/-- The character with the given code point. Surrogates are none, and neither is anything above
U+10FFFF. -/
def scalar? (n : Nat) : Option Char :=
  if h : n.isValidChar then some (Char.ofNatAux n h) else none

end LiveMarkup.Text
