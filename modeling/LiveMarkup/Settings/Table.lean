import LiveMarkup.Settings.Quoted

/-!
# Tables of settings

A table has an entry a line: a key, an equals sign and a value. Values are texts, truth values, and
lists of texts, which may stretch over several lines. A number sign begins a comment, which goes to
the end of its line. Only what settings can hold is read: tables within the table, numbers and times
are not.
-/

namespace LiveMarkup.Settings

/-- What a key is set to. -/
inductive Setting where
  | text (value : String)
  | flag (value : Bool)
  | list (values : List String)
  deriving DecidableEq, Repr

/-- A key with what it is set to. -/
structure Assignment where
  key : String
  setting : Setting
  deriving DecidableEq, Repr

/-- The text behind white space within a line. -/
def skipSpaces (s : List Char) : List Char :=
  s.dropWhile isSpace

/-- The text behind a comment, if it begins with one. -/
def skipComment : List Char → List Char
  | '#' :: rest => rest.dropWhile isPrintable
  | s => s

/-- The text behind what may stand at the end of a line: white space, a comment, and the line end, or
the end of the text. -/
def finishLine? (s : List Char) : Option (List Char) :=
  match skipComment (skipSpaces s) with
  | [] => some []
  | left => afterLineEnd? left

/-- Whether a character may stand in a key without quotes. -/
def isKeyChar (c : Char) : Bool :=
  c.isAlphanum || c == '_' || c == '-'

/-- A key, and the text behind it. -/
def key? : List Char → Reading
  | '"' :: rest => lineText? rest
  | '\'' :: rest => lineLiteral? rest
  | s =>
    let name := s.takeWhile isKeyChar
    if name.isEmpty then none else some (name, s.drop name.length)

/-- The text behind white space, comments and line ends, given a bound on the number of lines. -/
def skipLines : Nat → List Char → List Char
  | 0, s => s
  | limit + 1, s =>
    let s := skipSpaces s
    match afterLineEnd? (skipComment s) with
    | some left => skipLines limit left
    | none => s

/-- The items of a list up to the bracket that ends it, and the text behind it, given a bound on their
number. A comma may stand behind the last item. -/
def items? : Nat → List Char → Option (List String × List Char)
  | 0, _ => none
  | limit + 1, s =>
    match skipLines s.length s with
    | ']' :: left => some ([], left)
    | s => do
      let (item, left) ← quoted? s
      let item := String.ofList item
      match skipLines left.length left with
      | ',' :: left =>
        let (items, left) ← items? limit left
        return (item :: items, left)
      | ']' :: left => return ([item], left)
      | _ => none

/-- A value, and the text behind it. -/
def value? : List Char → Option (Setting × List Char)
  | 't' :: 'r' :: 'u' :: 'e' :: left => some (.flag true, left)
  | 'f' :: 'a' :: 'l' :: 's' :: 'e' :: left => some (.flag false, left)
  | '[' :: rest => (items? (rest.length + 1) rest).map fun (items, left) => (.list items, left)
  | s => (quoted? s).map fun (text, left) => (.text (String.ofList text), left)

/-- An entry, and the text behind its line. -/
def assignment? (s : List Char) : Option (Assignment × List Char) := do
  let (key, left) ← key? s
  let left ← match skipSpaces left with
    | '=' :: left => some (skipSpaces left)
    | _ => none
  let (setting, left) ← value? left
  let left ← finishLine? left
  return (⟨String.ofList key, setting⟩, left)

/-- The entries of a table in order, given a bound on the number of lines. -/
def assignments? : Nat → List Char → Option (List Assignment)
  | 0, _ => none
  | limit + 1, s =>
    match skipSpaces s with
    | [] => some []
    | s =>
      match finishLine? s with
      | some left => assignments? limit left
      | none => do
        let (entry, left) ← assignment? s
        let entries ← assignments? limit left
        return entry :: entries

/-- The entries of a table in order; none if the text is no table that can be read. A byte order mark
at its beginning does not count. -/
def table? (text : String) : Option (List Assignment) :=
  let s := match text.toList with
    | '\ufeff' :: rest => rest
    | s => s
  assignments? (s.length + 1) s

end LiveMarkup.Settings
