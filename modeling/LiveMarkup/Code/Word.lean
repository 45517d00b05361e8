import LiveMarkup.Text.Identifier

/-!
# Words

Words of code: a character that may begin an identifier, and those behind it that may go on with one.
A mark in front, `r#`, makes a raw word, which is an identifier even if the word is a keyword; a few
keywords cannot be had that way.
-/

namespace LiveMarkup.Code

open Text (isIdentifierStart isIdentifierContinue)

/-- A word and the text behind it. -/
def word? : List Char → Option (List Char × List Char)
  | c :: rest =>
    if isIdentifierStart c then
      some (c :: rest.takeWhile isIdentifierContinue, rest.dropWhile isIdentifierContinue)
    else none
  | [] => none

/-- Words that keep their meaning as keywords even where a raw word stands. -/
def neverRaw : List String := ["_", "super", "self", "Self", "crate"]

/-- A raw word without its mark, and the text behind it. -/
def rawWord? : List Char → Option (List Char × List Char)
  | 'r' :: '#' :: rest =>
    (word? rest).filter fun word => String.ofList word.1 ∉ neverRaw
  | _ => none

/-- Words that have a meaning of their own, or may get one, and are no identifiers. -/
def keywords : List String :=
  ["_", "abstract", "as", "async", "await", "become", "box", "break", "const", "continue", "crate",
    "do", "dyn", "else", "enum", "extern", "false", "final", "fn", "for", "if", "impl", "in", "let",
    "loop", "macro", "match", "mod", "move", "mut", "override", "priv", "pub", "ref", "return",
    "Self", "self", "static", "struct", "super", "trait", "true", "try", "type", "typeof", "unsafe",
    "unsized", "use", "virtual", "where", "while", "yield"]

/-- **A word is a part of its text**: put back in front of the text behind it, it gives the text that
it was taken from. -/
theorem word?_append {s word behind : List Char} (h : word? s = some (word, behind)) :
    word ++ behind = s := by
  cases s with
  | nil => simp [word?] at h
  | cons c rest =>
    simp only [word?] at h
    split at h
    · cases h
      simp
    · cases h

/-- What follows a word is shorter than the text that began with it. -/
theorem word?_length_lt {s word behind : List Char} (h : word? s = some (word, behind)) :
    behind.length < s.length := by
  cases s with
  | nil => simp [word?] at h
  | cons c rest =>
    simp only [word?] at h
    split at h
    · cases h
      exact Nat.lt_succ_of_le (List.dropWhile_sublist _).length_le
    · cases h

end LiveMarkup.Code
