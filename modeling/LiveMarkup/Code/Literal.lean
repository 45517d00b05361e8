import LiveMarkup.Code.Word
import LiveMarkup.Text.Number

/-!
# Literals

Texts, characters and numbers as they are written in code. A text or a character stands between quotes
and may hold escapes, each behind a backslash; letters in front of the quotes tell what it is made of
(`Alphabet`). A raw text has no escapes and ends at a quote with as many marks behind it as it began
with. Numbers are whole or fractional. A word that follows a literal at once is its suffix and belongs
to it.
-/

namespace LiveMarkup.Code

open Text (isIdentifierStart isIdentifierContinue digitValue? digitsValue? scalar?)

/-- A literal by its kind. Of a number it is kept how it is written. -/
inductive Literal where
  /-- A text of characters. -/
  | text
  | whole (digits : String)
  | fractional (digits : String)
  /-- A character, a byte, or a text of bytes. -/
  | other
  deriving DecidableEq, Repr

/-- What stands between quotes is made of. -/
inductive Alphabet where
  /-- Characters. -/
  | characters
  /-- Bytes; those beyond ASCII need an escape. -/
  | bytes
  /-- Characters other than NUL. -/
  | nonzero
  deriving DecidableEq, Repr

/-- The text behind the suffix of a literal, if it has one. -/
def behindSuffix (s : List Char) : List Char :=
  match word? s with
  | some (_, behind) => behind
  | none => s

/-! ## Texts -/

/-- The character that is written by its code point in curly brackets, and the text behind it; `value`
and `count` are those of the digits so far. There are one to six digits, and low lines behind the
first one. -/
def codePoint? (value count : Nat) : List Char → Option (Char × List Char)
  | '_' :: rest => if count = 0 then none else codePoint? value count rest
  | '\x7d' :: rest => if count = 0 then none else (scalar? value).map (·, rest)
  | c :: rest =>
    match digitValue? 16 c with
    | some digit => if count = 6 then none else codePoint? (value * 16 + digit) (count + 1) rest
    | none => none
  | [] => none

namespace Alphabet

/-- Whether `c` may stand for itself. -/
def allows : Alphabet → Char → Bool
  | .characters, _ => true
  | .bytes, c => c.toNat < 0x80
  | .nonzero, c => c != '\x00'

/-- Whether an escape may stand for the number that two hexadecimal digits give. -/
def allowsNumber : Alphabet → Nat → Bool
  | .characters, n => n < 0x80
  | .bytes, _ => true
  | .nonzero, n => n != 0

/-- The text behind an escape, given the text behind its backslash. -/
def behindEscape (alphabet : Alphabet) : List Char → Option (List Char)
  | 'x' :: a :: b :: rest =>
    ((digitsValue? 16 0 [a, b]).filter alphabet.allowsNumber).map fun _ => rest
  | 'u' :: '\x7b' :: rest =>
    if alphabet = .bytes then none
    else ((codePoint? 0 0 rest).filter fun found => alphabet.allows found.1).map Prod.snd
  | '0' :: rest => if alphabet = .nonzero then none else some rest
  | c :: rest => if c ∈ ['n', 'r', 't', '\\', '\'', '"'] then some rest else none
  | [] => none

/-- The text behind an escaped line break and the white space that follows it. A carriage return counts
as white space in front of a line feed only. -/
def behindLineBreak : List Char → Option (List Char)
  | '\r' :: '\n' :: rest => behindLineBreak rest
  | '\r' :: _ => none
  | c :: rest => if c ∈ [' ', '\t', '\n'] then behindLineBreak rest else some (c :: rest)
  | [] => none

/-- The text behind the quote that ends a text, given the text behind the quote that begins it; at
most `limit` characters and escapes. -/
def behindText (alphabet : Alphabet) : Nat → List Char → Option (List Char)
  | 0, _ => none
  | _, '"' :: rest => some rest
  | limit + 1, '\\' :: '\n' :: rest =>
    (behindLineBreak ('\n' :: rest)).bind (behindText alphabet limit)
  | limit + 1, '\\' :: '\r' :: rest =>
    (behindLineBreak ('\r' :: rest)).bind (behindText alphabet limit)
  | limit + 1, '\\' :: rest => (alphabet.behindEscape rest).bind (behindText alphabet limit)
  | limit + 1, '\r' :: '\n' :: rest => behindText alphabet limit rest
  | _, '\r' :: _ => none
  | limit + 1, c :: rest => if alphabet.allows c then behindText alphabet limit rest else none
  | _, [] => none

/-- The text behind the end of a raw text with the given number of marks around it. -/
def behindRawText (alphabet : Alphabet) (marks : Nat) : List Char → Option (List Char)
  | [] => none
  | '\r' :: '\n' :: rest => behindRawText alphabet marks rest
  | '\r' :: _ => none
  | c :: rest =>
    if c = '"' && (List.replicate marks '#').isPrefixOf rest then some (rest.drop marks)
    else if alphabet.allows c then behindRawText alphabet marks rest
    else none

/-- The text behind a raw text, given the text behind its letters. There are at most 255 marks. -/
def behindMarked (alphabet : Alphabet) (s : List Char) : Option (List Char) :=
  let marks := (s.takeWhile (· == '#')).length
  match s.drop marks with
  | '"' :: rest => if marks ≤ 255 then alphabet.behindRawText marks rest else none
  | _ => none

/-- The text behind a character, given the text behind the quote that begins it. -/
def behindCharacter (alphabet : Alphabet) : List Char → Option (List Char)
  | '\\' :: rest =>
    match alphabet.behindEscape rest with
    | some ('\'' :: behind) => some behind
    | _ => none
  | c :: '\'' :: behind => if alphabet.allows c then some behind else none
  | _ => none

end Alphabet

/-- A literal between quotes, and the text behind it. -/
def quoted? (s : List Char) : Option (Literal × List Char) :=
  let cooked (alphabet : Alphabet) (rest : List Char) :=
    alphabet.behindText (rest.length + 1) rest
  let read : Option (Literal × List Char) :=
    match s with
    | '"' :: rest => (cooked .characters rest).map (.text, ·)
    | 'r' :: rest => (Alphabet.characters.behindMarked rest).map (.text, ·)
    | 'b' :: '"' :: rest => (cooked .bytes rest).map (.other, ·)
    | 'b' :: 'r' :: rest => (Alphabet.bytes.behindMarked rest).map (.other, ·)
    | 'b' :: '\'' :: rest => (Alphabet.bytes.behindCharacter rest).map (.other, ·)
    | 'c' :: '"' :: rest => (cooked .nonzero rest).map (.other, ·)
    | 'c' :: 'r' :: rest => (Alphabet.nonzero.behindMarked rest).map (.other, ·)
    | '\'' :: rest => (Alphabet.characters.behindCharacter rest).map (.other, ·)
    | _ => none
  read.map fun (literal, behind) => (literal, behindSuffix behind)

/-! ## Numbers -/

/-- Whether `c` may stand among the digits of a decimal number. -/
def isDecimalPlace (c : Char) : Bool :=
  c.isDigit || c == '_'

/-- The text behind an exponent, given the text behind its letter. -/
def behindExponent (s : List Char) : Option (List Char) :=
  let unsigned := match s.dropWhile (· == '_') with
    | '+' :: rest => rest
    | '-' :: rest => rest
    | rest => rest
  match unsigned.dropWhile (· == '_') with
  | c :: rest => if c.isDigit then some (rest.dropWhile isDecimalPlace) else none
  | [] => none

/-- The text behind the digits of a number with a point or an exponent. What a point is followed by
tells whether it belongs to the number: not if another one does, or a word. -/
def behindFractionDigits (s : List Char) : Option (List Char) :=
  match s.dropWhile isDecimalPlace with
  | '.' :: rest =>
    if rest.head?.any fun c => c == '.' || isIdentifierStart c then none
    else
      let fraction := rest.dropWhile isDecimalPlace
      match fraction with
      | 'e' :: power => some ((behindExponent power).getD fraction)
      | 'E' :: power => some ((behindExponent power).getD fraction)
      | _ => some fraction
  | 'e' :: power => behindExponent power
  | 'E' :: power => behindExponent power
  | _ => none

/-- The radix of a whole number, and its digits with what follows them. -/
def radixOf : List Char → Nat × List Char
  | '0' :: 'x' :: rest => (16, rest)
  | '0' :: 'o' :: rest => (8, rest)
  | '0' :: 'b' :: rest => (2, rest)
  | s => (10, s)

/-- The text behind the digits of a whole number. -/
def behindWholeDigits (s : List Char) : Option (List Char) :=
  let (radix, digits) := radixOf s
  let isPlace (c : Char) := (digitValue? radix c).isSome
  let places := digits.takeWhile fun c => isPlace c || c == '_'
  if places.any isPlace then some (digits.drop places.length) else none

/-- The text behind the suffix of a number. A character that can only go on with a word may not stand
there. -/
def behindNumber (behind : List Char) : Option (List Char) :=
  let behind := behindSuffix behind
  if behind.head?.any isIdentifierContinue then none else some behind

/-- A number, and the text behind it. -/
def number? (s : List Char) : Option (Literal × List Char) :=
  if s.head?.any Char.isDigit then
    let written (behind : List Char) := String.ofList (s.take (s.length - behind.length))
    match (behindFractionDigits s).bind behindNumber with
    | some behind => some (.fractional (written behind), behind)
    | none =>
      ((behindWholeDigits s).bind behindNumber).map fun behind => (.whole (written behind), behind)
  else none

/-- A literal, and the text behind it. -/
def literal? (s : List Char) : Option (Literal × List Char) :=
  (quoted? s).or (number? s)

/-! ## Places in a row of fields -/

/-- Whether digits name a field by its place: a whole number that fits 32 bits and has no suffix. -/
def isPlaceNumber (digits : List Char) : Bool :=
  let (radix, places) := radixOf digits
  match digitsValue? radix 0 (places.filter (· != '_')) with
  | some n => places.any Char.isAlphanum && n < 0x100000000
  | none => false

/-- The numbers in a fractional one, those on both sides of its point. -/
def pointSeparated (digits : List Char) : List (List Char) :=
  let front := digits.takeWhile (· != '.')
  match digits.drop front.length with
  | [] => [front]
  | [_] => [front]
  | _ :: fraction => [front, fraction]

end LiveMarkup.Code
