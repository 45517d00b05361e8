import LiveMarkup.Code.Type

/-!
# Patterns

What a value is taken apart by: names, literals, ranges, and patterns for the parts of a value.
-/

namespace LiveMarkup.Code

open LiveMarkup.Code.Parser

/-- Reads alternatives with bars between them, and perhaps one in front. -/
def alternatives (g : Grammar) : Parser PatternForm := do
  let led ← takes "|"
  let atBar : Look := fun ts => At.symbol "|" ts && !At.symbol "||" ts && !At.symbol "|=" ts
  let form ← g.pattern
  let several := led || atBar (← get)
  repeatWhile atBar do
    symbol "|"
    discard g.pattern
  return if several then .other else form

/-- Reads patterns with commas between them. -/
def patternList (g : Grammar) : Parser Unit :=
  list (discard (alternatives g))

/-! ## Ranges -/

/-- Reads the dots of a range and tells whether it has an equals sign; `threeDots` tells whether a third
dot may stand in its place. -/
def rangeDots (threeDots : Bool) : Parser Bool := do
  if ← takes "..=" then
    return true
  else if At.symbol "..." (← get) then
    if !threeDots then failure
    symbol "..."
    return true
  else
    symbol ".."
    return false

/-- Whether a range has no bound here. -/
def atNoBound : Look := fun ts =>
  At.someOf [At.theEnd, At.symbol "|", At.symbol "=", At.symbol ",", At.symbol ";", At.word "if"] ts
    || (At.symbol ":" ts && !At.symbol "::" ts)

/-- Reads a bound of a range: a literal, a constant or a path. -/
def rangeBound (g : Grammar) : Parser Unit := do
  let ts ← get
  if At.literal ts then literal
  else if At.identifier ts || At.someWord pathKeywords ts
      || At.symbol "::" ts || At.symbol "<" ts then
    discard (qualifiedPath g true)
  else
    word "const"
    body g

/-- Reads a range from its dots on, and tells whether it has an end. -/
def rangeFrom (g : Grammar) (threeDots : Bool) : Parser Bool := do
  let inclusive ← rangeDots threeDots
  if atNoBound (← get) then
    if inclusive then failure
    return false
  else
    rangeBound g
    return true

/-- Reads the rest of a range if one goes on behind its first bound. -/
def optionalRange (g : Grammar) : Parser PatternForm := do
  if At.symbol ".." (← get) then
    return if ← rangeFrom g true then .other else .openRange
  else
    return .other

/-! ## Parts of values -/

/-- Reads the name of a field or its place. -/
def member : Parser Unit :=
  token fun
    | .literal (.whole digits) => if isPlaceNumber digits.toList then some () else none
    | token => token.identifier?.map fun _ => ()

/-- Reads a field of a pattern. -/
def patternField (g : Grammar) : Parser Unit := do
  let boxed ← takesWord "box"
  let shared ← takesWord "ref"
  let mutable ← takesWord "mut"
  let ts ← get
  if boxed || shared || mutable then
    discard identifier
  else
    member
    if !At.identifier ts || At.symbol ":" (← get) then
      symbol ":"
      discard (alternatives g)

/-- Reads the fields of a pattern. Two dots stand for those that are left. -/
def patternFields (g : Grammar) : Parser Unit := do
  iterate (fun _ => do
    if At.theEnd (← get) then return none
    discard (attributes g)
    if ← takes ".." then return none
    patternField g
    if ← takes "," then return some () else return none) ()

/-- Reads a pattern that begins with a path. -/
def pathPattern (g : Grammar) : Parser PatternForm := do
  let form? ← qualifiedPath g true
  let ts ← get
  if atExpansion ts && form?.any PathForm.bare then
    discard expansion
    return .other
  else if At.group .curly ts then
    inside .curly (patternFields g)
    return .other
  else if At.group .round ts then
    inside .round (patternList g)
    return .other
  else
    optionalRange g

/-- Reads a name that is bound, and perhaps a pattern for its value. -/
def binding (g : Grammar) : Parser Unit := do
  discard (takesWord "ref")
  discard (takesWord "mut")
  identifierOr ["self"]
  if ← takes "@" then discard g.pattern

/-- Reads the pattern of a part of a row. A range in it has both ends. -/
def rowPart (g : Grammar) : Parser Unit := do
  if (← alternatives g) = .openRange then failure

/-! ## Patterns -/

/-- Whether a pattern that begins with a path comes next. -/
def atPathPattern : Look := fun ts =>
  let next := ts.drop 1
  At.someOf [At.symbol "::", At.symbol "<", At.someWord ["Self", "super", "crate"]] ts
    || (At.word "self" ts && At.symbol "::" next)
    || (At.identifier ts
      && At.someOf [At.symbol "::", At.symbol "!", At.group .curly, At.group .round, At.symbol ".."]
        next)

/-- Reads a pattern without alternatives. -/
def pattern (g : Grammar) : Parser PatternForm := do
  let ts ← get
  if atPathPattern ts then
    pathPattern g
  else if ← takesWord "_" then
    return .other
  else if ← takesWord "box" then
    discard g.pattern
    return .other
  else if At.symbol "-" ts || At.literal ts || At.word "const" ts then
    rangeBound g
    optionalRange g
  else if At.identifier ts || At.someWord ["ref", "mut", "self"] ts then
    binding g
    return .other
  else if ← takes "&" then
    discard (takesWord "mut")
    discard g.pattern
    return .other
  else if At.group .round ts then
    inside .round (patternList g)
    return .other
  else if At.group .square ts then
    inside .square (list (rowPart g))
    return .other
  else if At.symbol ".." ts && !At.symbol "..." ts then
    return if ← rangeFrom g false then .openRange else .other
  else
    failure

end LiveMarkup.Code
