import LiveMarkup.Text.Escaped.Unseen
import LiveMarkup.Text.Escaped.Extending

/-!
# Texts between quotes

A quoted text shows every character that a reader could see and tell from its neighbours, and writes
the others in an escape that begins with a backslash: a letter for the common ones, and the code
point in hexadecimal for the rest. Two forms differ in the treatment of NUL alone:

* `literal` is a string literal of the generated code. There `\0` must not run into an octal digit
  behind it, so NUL is written `\x00` before one.
* `debug` is the form in which values are shown to a person.
-/

namespace LiveMarkup.Text

/-- Whether `c` is written by its code point: it shows nothing, or is drawn onto its neighbour. -/
def isConcealed (c : Char) : Bool :=
  unseenRanges.contains c.toNat && c != ' ' || extendingRanges.contains c.toNat

/-- The hexadecimal digit of `n`, in lower case. -/
def hexDigit (n : Nat) : Char :=
  if n < 10 then Char.ofNat ('0'.toNat + n) else Char.ofNat ('a'.toNat + (n - 10))

/-- `n` in hexadecimal, in lower case and without leading zeros. -/
def hexadecimal (n : Nat) : List Char :=
  if n < 16 then [hexDigit n] else hexadecimal (n / 16) ++ [hexDigit (n % 16)]

/-- A character other than NUL inside quotes. -/
def escapeChar (c : Char) : List Char :=
  match c with
  | '\t' => ['\\', 't']
  | '\r' => ['\\', 'r']
  | '\n' => ['\\', 'n']
  | '"' => ['\\', '"']
  | '\\' => ['\\', '\\']
  | c => if isConcealed c then ['\\', 'u', '\x7b'] ++ hexadecimal c.toNat ++ ['\x7d'] else [c]

/-- Whether the text begins with an octal digit. -/
def beginsOctal : List Char → Bool
  | c :: _ => '0' ≤ c && c ≤ '7'
  | [] => false

/-- The inside of a string literal. -/
def escapeLiteral : List Char → List Char
  | [] => []
  | c :: rest =>
    if c = '\x00' then
      (if beginsOctal rest then ['\\', 'x', '0', '0'] else ['\\', '0']) ++ escapeLiteral rest
    else escapeChar c ++ escapeLiteral rest

/-- The inside of a quoted text that is shown to a person. -/
def escapeDebug : List Char → List Char
  | [] => []
  | c :: rest => (if c = '\x00' then ['\\', '0'] else escapeChar c) ++ escapeDebug rest

/-- The string literal that stands for `s` in generated code. -/
def literal (s : String) : String :=
  String.ofList ('"' :: escapeLiteral s.toList ++ ['"'])

/-- The text `s` as it is shown to a person. -/
def debug (s : String) : String :=
  String.ofList ('"' :: escapeDebug s.toList ++ ['"'])

end LiveMarkup.Text
