import LiveMarkup.Code.Attribute

/-!
# Bounds and generic parameters

What may be said of a type in place of its name: which traits it has and how long it lives. Items and
types that take parameters give them between angle brackets, each with its bounds, and may put more
bounds behind themselves in a clause of conditions.
-/

namespace LiveMarkup.Code

open LiveMarkup.Code.Parser

/-! ## Single bounds -/

/-- Reads what a function gives back, if it is said. -/
def result (g : Grammar) (plus : Bool) : Parser Unit := do
  if ← takes "->" then g.type plus

/-- Reads the value of a constant parameter: a literal, an identifier or a block. -/
def constant (g : Grammar) : Parser Unit := do
  let ts ← get
  if At.literal ts then literal
  else if At.identifier ts then discard identifier
  else body g

/-- Reads the lifetimes and identifiers that a type captures. -/
def capture : Parser Unit := do
  word "use"
  symbol "<"
  punctuated "," (At.symbol ">") do
    if At.lifetime (← get) then lifetime else identifierOr ["Self"]
  symbol ">"

/-- Reads parameters that what follows holds for, if there are any, and tells whether there are. -/
def binder (g : Grammar) : Parser Bool := do
  if ← takesWord "for" then
    symbol "<"
    punctuated "," (At.symbol ">") g.parameter
    symbol ">"
    return true
  else
    return false

/-- Whether the arguments of a trait of functions come next. -/
def atParameters : Look := fun ts =>
  At.group .round ts || (At.symbol "::" ts && At.group .round (ts.drop 2))

/-- Reads a trait. It may be one that need not be had, or, if `conditional` allows it, one that is had
in constants; the arguments of a trait of functions stand in round brackets. -/
def trait (g : Grammar) (conditional : Bool) : Parser Unit := do
  let bindsFirst ← binder g
  if At.group .square (← get) then
    inside .square (word "const")
    if !conditional then failure
  else if ← takesWord "const" then
    if !conditional then failure
  let negated ← takes "?"
  let bindsNext ← if bindsFirst || !negated then pure false else binder g
  if negated && (bindsFirst || bindsNext) then failure
  let form ← path g false
  if form.arguments ≠ .some && atParameters (← get) then
    let _ ← takes "::"
    inside .round (list (g.type true))
    result g false

/-- Reads a bound and tells whether it is a trait; `capturing` and `conditional` tell what else than a
plain trait or a lifetime it may be. -/
def bound (g : Grammar) (capturing conditional : Bool) : Parser Bool := do
  let ts ← get
  if At.lifetime ts then
    lifetime
    return false
  else if At.word "use" ts then
    capture
    if !capturing then failure
    return false
  else if At.group .round ts then
    inside .round (trait g conditional)
    return true
  else
    trait g conditional
    return true

/-- Reads bounds joined by plus signs up to where `stop` holds. -/
def boundsUntil (g : Grammar) (stop : Look) (conditional : Bool) : Parser Unit :=
  punctuated "+" stop (discard (bound g false conditional))

/-! ## Generic parameters -/

/-- Where the bounds of a generic parameter end. -/
def endsParameter : Look :=
  At.someOf [At.theEnd, At.symbol ",", At.symbol ">", At.symbol "="]

/-- Reads a generic parameter: a lifetime, a constant with its type, or a type. -/
def parameter (g : Grammar) : Parser Unit := do
  discard (attributes g)
  if At.lifetime (← get) then
    lifetime
    if ← takes ":" then
      punctuated "+" (At.someOf [At.theEnd, At.symbol ",", At.symbol ">"]) lifetime
  else if ← takesWord "const" then
    discard identifier
    symbol ":"
    g.type true
    if ← takes "=" then constant g
  else
    discard identifier
    if ← takes ":" then boundsUntil g endsParameter true
    if ← takes "=" then g.type true

/-- Whether a bound comes next, behind a plus sign. -/
def atBound (conditional : Bool) : Look := fun ts =>
  At.someOf [At.anyWord, At.symbol "::", At.symbol "?", At.lifetime, At.group .round] ts
    || (conditional && (At.group .square ts || At.word "const" ts))

/-- Reads bounds, more than one if `plus` allows it, and tells whether a trait is among them. A plus
sign may end them. -/
def bounds (g : Grammar) (plus capturing conditional : Bool) : Parser Bool := do
  let first ← bound g capturing conditional
  let (found, _) ← iterate (fun (found, more) => do
    if more && plus && At.symbol "+" (← get) then
      symbol "+"
      if atBound conditional (← get) then
        let next ← bound g capturing conditional
        return some (found || next, true)
      else
        return some (found, false)
    else
      return none) (first, true)
  return found

/-- Reads bounds of which at least one is a trait. -/
def traits (g : Grammar) (plus capturing conditional : Bool) : Parser Unit := do
  if !(← bounds g plus capturing conditional) then failure

/-- Reads generic parameters between angle brackets, if there are any. -/
def generics (g : Grammar) : Parser Unit := do
  if ← takes "<" then
    punctuated "," (At.symbol ">") do
      discard (attributes g)
      if !(← takesWord "_") then g.parameter
    symbol ">"

/-- Whether generic parameters come next rather than a path that begins with a type. -/
def atGenerics : Look := fun ts =>
  let second := ts.drop 1
  let third := ts.drop 2
  At.symbol "<" ts
    && (At.symbol ">" second || At.symbol "#" second || At.word "const" second
      || ((At.lifetime second || At.identifier second)
        && (At.symbol ">" third || At.symbol "," third || At.symbol "=" third
          || (At.symbol ":" third && !At.symbol "::" third))))

/-! ## Conditions -/

/-- Where a clause of conditions ends, or one of them. -/
def endsCondition : Look := fun ts =>
  At.someOf [At.theEnd, At.group .curly, At.symbol ",", At.symbol ";", At.symbol "="] ts
    || (At.symbol ":" ts && !At.symbol "::" ts)

/-- Reads a condition: a lifetime or a type, and its bounds. -/
def typeCondition (g : Grammar) : Parser Unit := do
  let ts ← get
  if At.lifetime ts && At.symbol ":" (ts.drop 1) then
    lifetime
    symbol ":"
    punctuated "+" (At.someOf [endsCondition, At.symbol ":"]) lifetime
  else
    discard (binder g)
    g.type true
    symbol ":"
    boundsUntil g endsCondition true

/-- Reads a clause of conditions, if there is one. -/
def conditions (g : Grammar) : Parser Unit := do
  if ← takesWord "where" then
    if atGenerics (← get) then failure
    punctuated "," endsCondition (typeCondition g)

end LiveMarkup.Code
