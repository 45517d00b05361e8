import LiveMarkup.Code.Bound

/-!
# Types

The types that may stand among generic arguments, and the arguments themselves.
-/

namespace LiveMarkup.Code

open LiveMarkup.Code.Parser

/-! ## Types of functions -/

/-- Reads by which convention a function is called, if it is said. -/
def convention : Parser Unit := do
  if ← takesWord "extern" then optionalText

/-- Whether the mark comes next that stands for any further parameters, perhaps behind a name. -/
def atVariadic : Look := fun ts =>
  At.symbol "..." ts
    || ((At.identifier ts || At.word "_" ts) && At.symbol ":" (ts.drop 1)
      && At.symbol "..." (ts.drop 2))

/-- Reads a parameter of the type of a function: a type, perhaps behind a name. The `first` one may be
the value that a method belongs to. -/
def functionParameter (g : Grammar) (first : Bool) : Parser Unit := do
  let atOwned : Look := fun ts => first && At.word "mut" ts && At.word "self" (ts.drop 1)
  let owned := atOwned (← get)
  if owned then word "mut"
  let ts ← get
  let self := first && At.word "self" ts
  let named := (At.identifier ts || At.word "_" ts || self) && At.symbol ":" (ts.drop 1)
    && !At.symbol "::" (ts.drop 1)
  if named then
    discard anyWord
    symbol ":"
  if !(named && self) && atOwned (← get) then
    word "mut"
    word "self"
  else if owned && !named then word "self"
  else g.type true

/-- Reads the parameters of the type of a function. -/
def functionParameters (g : Grammar) : Parser Unit :=
  discard <| iterate (fun first => do
    if At.theEnd (← get) then return none
    discard (attributes g)
    if atVariadic (← get) then
      if !At.symbol "..." (← get) then
        discard anyWord
        symbol ":"
      symbol "..."
      discard (takes ",")
      return none
    functionParameter g first
    if ← takes "," then return some false else return none) true

/-- Reads the type of a function. -/
def functionType (g : Grammar) : Parser Unit := do
  discard (takesWord "unsafe")
  convention
  word "fn"
  inside .round (functionParameters g)
  result g false

/-! ## Types in round brackets -/

/-- What stands between round brackets in the place of a type. -/
inductive Enclosed where
  /-- No type, several ones, or one that goes on with no plus sign. -/
  | closed
  /-- A trait that need not be had. -/
  | negated
  | single (form : TypeForm)

/-- Reads what stands between round brackets in the place of a type. -/
def enclosed (g : Grammar) : Parser Enclosed := do
  let ts ← get
  if At.theEnd ts then
    return .closed
  else if At.lifetime ts then
    traits g true false false
    return .closed
  else if At.symbol "?" ts then
    trait g false
    return .negated
  else
    let form ← g.typeForm true
    if ← takes "," then
      list (g.type true)
      return .closed
    else
      return .single form

/-- Reads bounds, each behind a plus sign. -/
def furtherBounds (g : Grammar) : Parser Unit :=
  repeatWhile (At.symbol "+") do
    symbol "+"
    discard (bound g false false)

/-- Reads a type that begins with round brackets: a group of types, or the first of several bounds. -/
def enclosedType (g : Grammar) (plus : Bool) : Parser TypeForm := do
  let content ← inside .round (enclosed g)
  let more := At.symbol "+" (← get)
  match content with
  | .closed => return .other
  | .negated =>
    furtherBounds g
    return if more then .other else .bound
  | .single form =>
    if plus && form ≠ .other then furtherBounds g
    return .other

/-! ## Types by their names -/

/-- Reads a type that begins with a path; `bound` tells whether parameters that it holds for stand in
front of it. -/
def namedType (g : Grammar) (plus bound : Bool) : Parser TypeForm := do
  match ← qualifiedPath g false with
  | none => return .other
  | some form =>
    let ts ← get
    if atExpansion ts && form.bare then
      discard expansion
      return .other
    else if plus && At.symbol "+" ts then
      symbol "+"
      if atBound false (← get) then discard (bounds g true false false)
      return .other
    else if bound then
      return .bound
    else
      return if form.single then .name else .path

/-! ## Types -/

/-- What a type may begin with if parameters that it holds for stand in front of it. -/
def atBoundType : Look :=
  At.someOf [At.identifier, At.someWord ["fn", "unsafe", "extern", "super", "self", "Self", "crate"]]

/-- Reads a type; `plus` tells whether bounds joined by plus signs may stand for one. -/
def typeForm (g : Grammar) (plus : Bool) : Parser TypeForm := do
  let bound ← binder g
  let ts ← get
  if bound && !atBoundType ts then failure
  if At.group .round ts then
    enclosedType g plus
  else if At.someWord ["fn", "unsafe", "extern"] ts then
    functionType g
    return .other
  else if At.identifier ts || At.someWord pathKeywords ts
      || At.symbol "::" ts || At.symbol "<" ts then
    namedType g plus bound
  else if ← takesWord "dyn" then
    discard (takes "*")
    traits g plus false false
    return .other
  else if At.group .square ts then
    inside .square do
      g.type true
      if ← takes ";" then g.expression
    return .other
  else if ← takes "*" then
    if !(← takesWord "const") then word "mut"
    g.type false
    return .other
  else if ← takes "&" then
    optionalLifetime
    discard (takesWord "mut")
    g.type false
    return .other
  else if ← takes "!" then
    return .other
  else if ← takesWord "impl" then
    traits g plus true true
    return .other
  else if ← takesWord "_" then
    return .other
  else if At.lifetime ts then
    traits g true false false
    return .other
  else
    failure

/-! ## Generic arguments -/

/-- Reads a generic argument: a lifetime, a constant, a type, or what is said of an associated type whose
name stands in the place of one. -/
def argument (g : Grammar) : Parser Unit := do
  let ts ← get
  if At.lifetime ts && !At.symbol "+" (ts.drop 1) then
    lifetime
  else if At.literal ts || At.group .curly ts then
    constant g
  else if (← g.typeForm true) = .name then
    if ← takes "=" then
      let ts ← get
      if At.literal ts || At.group .curly ts then constant g else g.type true
    else if ← takes ":" then
      boundsUntil g (At.someOf [At.symbol ",", At.symbol ">"]) true

end LiveMarkup.Code
