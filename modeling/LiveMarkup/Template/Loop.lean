import LiveMarkup.Code.Token

/-!
# Heads of loops

The value of a loop directive reads `item of collection` or `item in collection`: an identifier, one
of the two words, and an expression, with white space between them and perhaps around them. The
expression may hold anything but line feeds.

Where nothing but white space stands behind the word, the last character of it that is no line feed is
taken for the expression, except for the first one, which is needed to end the word.

## Main results

* `collection?_core` — an expression without line feeds is taken, without the white space around it.
-/

namespace LiveMarkup.Template

open Text (isBlank trimEnd)

/-- The head of a loop. -/
structure Loop where
  /-- The name that is bound in turn, as it is written. -/
  item : String
  /-- The expression for what is walked through. -/
  collection : String
  deriving DecidableEq, Repr

namespace Loop

/-- The text behind the word that joins the two parts, and behind nothing else. -/
def behindWord : List Char → Option (List Char)
  | 'o' :: 'f' :: rest => some rest
  | 'i' :: 'n' :: rest => some rest
  | _ => none

/-- The expression that stands behind the word. White space has to come first. -/
def collection? (s : List Char) : Option (List Char) :=
  let blanks := s.takeWhile isBlank
  let core := trimEnd (s.dropWhile isBlank)
  if blanks.isEmpty then none
  else if core.isEmpty then
    ((blanks.drop 1).reverse.find? (· != '\n')).map fun c => [c]
  else if '\n' ∈ core then none
  else some core

/-- The two parts of a loop as they are written. -/
def split? (s : List Char) : Option (List Char × List Char) :=
  let s := s.dropWhile isBlank
  let item := s.takeWhile fun c => !isBlank c
  let rest := s.drop item.length
  if item.isEmpty then none
  else do
    let rest ← behindWord (rest.dropWhile isBlank)
    let collection ← collection? rest
    return (item, collection)

/-- The loop that a value describes; none if it has not the form of one, or binds something that is no
identifier. -/
def read? (value : String) : Option Loop := do
  let (item, collection) ← split? value.toList
  let item := String.ofList item
  let _ ← Code.identifier? item
  return ⟨item, String.ofList collection⟩

/-- An expression without line feeds is taken, without the white space around it. -/
theorem collection?_core {s : List Char} (hblank : (s.takeWhile isBlank).isEmpty = false)
    (hcore : (trimEnd (s.dropWhile isBlank)).isEmpty = false)
    (hline : '\n' ∉ trimEnd (s.dropWhile isBlank)) :
    collection? s = some (trimEnd (s.dropWhile isBlank)) := by
  simp [collection?, hblank, hcore, hline]

end Loop

end LiveMarkup.Template
