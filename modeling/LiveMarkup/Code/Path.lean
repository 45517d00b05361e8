import LiveMarkup.Code.Grammar

/-!
# Paths

Segments joined by double colons, each with generic arguments in angle brackets if need be. In a path to
a value the arguments stand behind a double colon, lest the bracket be taken for a comparison; in a path
to a type they need none.
-/

namespace LiveMarkup.Code

open LiveMarkup.Code.Parser

/-- The generic arguments of a segment. -/
inductive ArgumentForm where
  | none
  /-- Brackets with nothing between them. -/
  | empty
  | some
  deriving DecidableEq, Repr

/-- What a path has turned out to be. -/
structure PathForm where
  /-- The identifier of the last segment. -/
  name : String
  /-- Whether it has a single segment and no double colon in front. -/
  single : Bool
  /-- Whether no segment has generic arguments. -/
  bare : Bool
  /-- The generic arguments of the last segment. -/
  arguments : ArgumentForm
  deriving DecidableEq, Repr

/-- Words that are segments by themselves and take no arguments. -/
def bareSegments : List String := ["super", "self", "crate", "try"]

/-- Keywords that may stand among the words of a path without arguments. -/
def pathKeywords : List String := ["super", "self", "Self", "crate"]

/-- Reads words joined by double colons. -/
def wordPath : Parser Unit := do
  let _ ← takes "::"
  identifierOr pathKeywords
  repeatWhile (At.symbol "::") do
    symbol "::"
    identifierOr pathKeywords

/-- Reads generic arguments, perhaps behind a double colon. -/
def angles (g : Grammar) : Parser ArgumentForm := do
  let _ ← takes "::"
  symbol "<"
  let arguments ← get
  punctuated "," (At.symbol ">") g.argument
  symbol ">"
  return if At.symbol ">" arguments then .empty else .some

/-- Whether generic arguments come next in a path, which may be one to a `value`. -/
def atAngles (value : Bool) : Look := fun ts =>
  (!value && At.symbol "<" ts && !At.symbol "<=" ts && !At.symbol "<<=" ts)
    || (At.symbol "::" ts && At.symbol "<" (ts.drop 2))

/-- Reads a segment of a path and gives its identifier. -/
def segment (g : Grammar) (value : Bool) : Parser (String × ArgumentForm) := do
  let ts ← get
  if At.someWord bareSegments ts then
    return (← anyWord, .none)
  else
    let name ← if At.word "Self" ts then anyWord else identifier
    if atAngles value (← get) then
      return (name, ← angles g)
    else
      return (name, .none)

/-- Whether a double colon comes next that no round bracket follows. -/
def atJoint : Look := fun ts =>
  At.symbol "::" ts && !At.group .round (ts.drop 2)

/-- Reads the next segment of a path, if there is one. -/
def nextSegment? (g : Grammar) (value : Bool) (path : PathForm) : Parser (Option PathForm) := do
  if atJoint (← get) then
    symbol "::"
    let (name, arguments) ← segment g value
    return some ⟨name, false, path.bare && arguments = .none, arguments⟩
  else
    return none

/-- Reads a path. -/
def path (g : Grammar) (value : Bool) : Parser PathForm := do
  let rooted ← takes "::"
  let (name, arguments) ← segment g value
  iterate (nextSegment? g value) ⟨name, !rooted, arguments = .none, arguments⟩

/-- Reads a path, or one that begins with a type in angle brackets; of that nothing is told. -/
def qualifiedPath (g : Grammar) (value : Bool) : Parser (Option PathForm) := do
  if At.symbol "<" (← get) then
    symbol "<"
    g.type true
    if ← takesWord "as" then discard (path g false)
    symbol ">"
    symbol "::"
    discard (segment g value)
    repeatWhile (At.symbol "::") do
      symbol "::"
      discard (segment g value)
    return none
  else
    return some (← path g value)

/-- Whether an exclamation mark comes next that no equals sign follows: what stands behind it in
brackets is expanded in the place of the path. -/
def atExpansion : Look := fun ts =>
  At.symbol "!" ts && !At.symbol "!=" ts

/-- Reads the brackets of an expansion, behind its exclamation mark. -/
def expansion : Parser Bracket := do
  symbol "!"
  anyGroup

end LiveMarkup.Code
