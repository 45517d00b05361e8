import LiveMarkup.Code.Expression

/-!
# Items

Declarations, which may stand among the statements of a block: functions, types, traits and what is done
for them, constants, modules, and what is brought into use.
-/

namespace LiveMarkup.Code

open LiveMarkup.Code.Parser

/-- Reads a semicolon. -/
def semicolon : Parser Unit := symbol ";"

/-- Reads items of a kind between curly brackets, which may begin with attributes. -/
def itemsInside (g : Grammar) (one : Parser Unit) : Parser Unit :=
  inside .curly do
    innerAttributes g
    repeatWhile (fun ts => !At.theEnd ts) one

/-! ## Visibility -/

/-- Whether a place in round brackets comes next that an item is visible in. -/
def atPlace : Look
  | .group .round content :: _ =>
    At.someWord ["crate", "self", "super"] content && At.theEnd (content.drop 1)
      || At.word "in" content
  | _ => false

/-- Reads where an item is visible, if it is said, and tells whether it is. -/
def visibility : Parser Bool := do
  if ← takesWord "pub" then
    if atPlace (← get) then
      inside .round do
        if ← takesWord "in" then wordPath else discard anyWord
    return true
  else
    return false

/-! ## Functions -/

/-- The tokens behind a keyword, if it comes next. -/
def behindKeyword (text : String) (ts : List Token) : List Token :=
  if At.word text ts then ts.drop 1 else ts

/-- Whether a function comes next; `safe` tells whether that may be said of it. -/
def atFunction (safe : Bool) : Look := fun ts =>
  let ts := behindKeyword "async" (behindKeyword "const" ts)
  let ts := if safe && At.word "safe" ts then ts.drop 1 else behindKeyword "unsafe" ts
  let ts :=
    if At.word "extern" ts then
      if At.text (ts.drop 1) then ts.drop 2 else ts.drop 1
    else ts
  At.word "fn" ts

/-- Reads the value that a method belongs to. -/
def receiver (g : Grammar) : Parser Unit := do
  let reference ← takes "&"
  if reference then optionalLifetime
  discard (takesWord "mut")
  word "self"
  if !reference then
    if ← takes ":" then g.type true

/-- Reads a parameter of a function, and tells whether it is the value that a method belongs to; none
if it is the mark that stands for any further parameters. -/
def itemParameter (g : Grammar) : Parser (Option Bool) := do
  let ts ← get
  match receiver g ts with
  | some (_, rest) =>
    set rest
    return some true
  | none =>
    if At.identifier ts && At.symbol "<" (ts.drop 1) then
      g.type true
      return some false
    else
      discard g.pattern
      symbol ":"
      if ← takes "..." then
        return none
      else
        g.type true
        return some false

/-- Reads the parameters of a function. The value that a method belongs to is the first of them. -/
def itemParameters (g : Grammar) : Parser Unit :=
  discard <| iterate (fun first => do
    if At.theEnd (← get) then return none
    discard (attributes g)
    let further ← if ← takes "..." then pure none else itemParameter g
    match further with
    | none =>
      discard (takes ",")
      return none
    | some owner =>
      if owner && !first then failure
      if ← takes "," then return some false else return none) true

/-- Reads a function but for its body; `safe` tells whether that may be said of it. -/
def signature (g : Grammar) (safe : Bool) : Parser Unit := do
  discard (takesWord "const")
  discard (takesWord "async")
  if !(← takesWord "unsafe") && safe then discard (takesWord "safe")
  convention
  word "fn"
  discard identifier
  generics g
  inside .round (itemParameters g)
  result g true
  conditions g

/-- Reads the body of a function, or a semicolon in its place. -/
def optionalBody (g : Grammar) : Parser Unit := do
  if At.group .curly (← get) then body g else semicolon

/-! ## Values -/

/-- Reads a name, or a low line in its place. -/
def optionalName : Parser Unit := identifierOr ["_"]

/-- Reads the type and the value of a constant, behind its keyword. -/
def constantItem (g : Grammar) : Parser Unit := do
  word "const"
  optionalName
  generics g
  symbol ":"
  g.type true
  if ← takes "=" then g.expression
  conditions g
  semicolon

/-- Reads a variable that is there all the time. -/
def staticItem (g : Grammar) : Parser Unit := do
  word "static"
  discard (takesWord "mut")
  discard identifier
  if ← takes "=" then g.expression
  else
    symbol ":"
    g.type true
    if ← takes "=" then g.expression
  semicolon

/-! ## Types -/

/-- Where a clause of conditions may stand in the declaration of a type. -/
inductive ConditionPlace where
  | front
  | back
  | either
  deriving DecidableEq, Repr

/-- Whether the bounds of what is declared end here. -/
def endsDeclared : Look :=
  At.someOf [At.word "where", At.symbol "=", At.symbol ";"]

/-- Reads a type that is declared by its bounds or by another type. -/
def typeItem (g : Grammar) (place : ConditionPlace) : Parser Unit := do
  word "type"
  discard identifier
  generics g
  if ← takes ":" then boundsUntil g endsDeclared true
  let early := place ≠ .back && At.word "where" (← get)
  if early then conditions g
  if ← takes "=" then g.type true
  if place ≠ .front && !early then conditions g
  semicolon

/-- Reads a field with a name, which may be left out where its type is written out. -/
def namedField (g : Grammar) : Parser Unit := do
  discard (attributes g)
  discard visibility
  let unnamed := At.word "_" (← get)
  optionalName
  symbol ":"
  let ts ← get
  if unnamed && (At.word "struct" ts || (At.word "union" ts && At.group .curly (ts.drop 1))) then
    discard anyWord
    g.fields
  else
    g.type true

/-- Reads fields with names, between curly brackets. -/
def fields (g : Grammar) : Parser Unit :=
  inside .curly (list (namedField g))

/-- Reads fields without names, between round brackets. -/
def rowFields (g : Grammar) : Parser Unit :=
  inside .round <| list do
    discard (attributes g)
    discard visibility
    g.type true

/-- Reads a type with fields, behind its keyword. -/
def structItem (g : Grammar) : Parser Unit := do
  word "struct"
  discard identifier
  generics g
  let ts ← get
  if At.group .round ts then
    rowFields g
    conditions g
    semicolon
  else
    conditions g
    if At.group .curly (← get) then g.fields else semicolon

/-- Reads a case of a type. -/
def variant (g : Grammar) : Parser Unit := do
  discard (attributes g)
  discard visibility
  discard identifier
  let ts ← get
  if At.group .curly ts then g.fields
  else if At.group .round ts then rowFields g
  if ← takes "=" then g.expression

/-- Reads a type with cases. -/
def enumItem (g : Grammar) : Parser Unit := do
  word "enum"
  discard identifier
  generics g
  conditions g
  inside .curly (list (variant g))

/-- Reads a type whose fields lie at the same place. -/
def unionItem (g : Grammar) : Parser Unit := do
  word "union"
  discard identifier
  generics g
  conditions g
  g.fields

/-! ## Expansions -/

/-- Reads a path and what is expanded in its place, with a name in front of its brackets if `named`
allows it. Brackets other than curly ones have a semicolon behind them. -/
def expansionItem (named : Bool) : Parser Unit := do
  wordPath
  symbol "!"
  let ts ← get
  if named && (At.identifier ts || At.word "try" ts) then discard anyWord
  if (← anyGroup) ≠ .curly then semicolon

/-- Whether an expansion comes next. -/
def atExpansionItem : Look :=
  At.someOf [At.identifier, At.symbol "::", At.someWord ["self", "super", "crate"]]

/-- Reads the declaration of what is expanded in the place of its name. -/
def expansionRule : Parser Unit := do
  word "macro"
  discard identifier
  if At.group .round (← get) then discard anyGroup
  inside .curly (set ([] : List Token))

/-! ## Traits -/

/-- Reads an item of a trait. -/
def traitMember (g : Grammar) : Parser Unit := do
  discard (attributes g)
  let visible ← visibility
  let defaulted ← takesWord "default"
  let ts ← get
  if atFunction false ts then
    signature g false
    optionalBody g
  else if At.word "const" ts then constantItem g
  else if At.word "type" ts then typeItem g .back
  else if !visible && !defaulted && atExpansionItem ts then expansionItem false
  else failure

/-- Reads a trait from its keyword on; `plain` tells whether it may be another name for bounds. -/
def traitItem (g : Grammar) (plain : Bool) : Parser Unit := do
  word "trait"
  discard identifier
  generics g
  if plain && At.symbol "=" (← get) then
    symbol "="
    boundsUntil g (At.someOf [At.word "where", At.symbol ";"]) false
    conditions g
    semicolon
  else
    if ← takes ":" then
      boundsUntil g (At.someOf [At.word "where", At.group .curly]) true
    conditions g
    itemsInside g (traitMember g)

/-- Reads an item of what is done for a type. -/
def implementationMember (g : Grammar) : Parser Unit := do
  discard (attributes g)
  let visible ← visibility
  let ts ← get
  let defaulted := At.word "default" ts && !At.symbol "!" (ts.drop 1)
  if defaulted then word "default"
  let ts ← get
  if atFunction false ts then
    signature g false
    optionalBody g
  else if At.word "const" ts then constantItem g
  else if At.word "type" ts then typeItem g .back
  else if !visible && !defaulted && atExpansionItem ts then expansionItem false
  else failure

/-- Reads what is done for a type, perhaps to give it a trait. An exclamation mark withholds the trait
from the type, and is out of place where none is given. -/
def implementation (g : Grammar) : Parser Unit := do
  discard (takesWord "default")
  discard (takesWord "unsafe")
  word "impl"
  if atGenerics (← get) then generics g
  let ts ← get
  if At.word "const" ts || (At.symbol "?" ts && At.word "const" (ts.drop 1)) then
    discard (takes "?")
    word "const"
  let ts ← get
  let withheld := At.symbol "!" ts && !At.group .curly (ts.drop 1)
  if withheld then symbol "!"
  g.type true
  if ← takesWord "for" then g.type true
  else if withheld then failure
  conditions g
  itemsInside g (implementationMember g)

/-! ## Modules -/

/-- Reads a module. -/
def moduleItem (g : Grammar) : Parser Unit := do
  discard (takesWord "unsafe")
  word "mod"
  identifierOr ["try"]
  if !(← takes ";") then itemsInside g g.item

/-- Reads another package that is brought into use. -/
def packageItem : Parser Unit := do
  word "extern"
  word "crate"
  identifierOr ["self"]
  if ← takesWord "as" then optionalName
  semicolon

/-- Reads an item of another language. -/
def foreignMember (g : Grammar) : Parser Unit := do
  discard (attributes g)
  let visible ← visibility
  let ts ← get
  if atFunction true ts then
    signature g true
    optionalBody g
  else if At.word "static" ts
      || (At.someWord ["unsafe", "safe"] ts && At.word "static" (ts.drop 1)) then
    if !(← takesWord "unsafe") then discard (takesWord "safe")
    word "static"
    discard (takesWord "mut")
    discard identifier
    symbol ":"
    g.type true
    if ← takes "=" then g.expression
    semicolon
  else if At.word "type" ts then typeItem g .either
  else if !visible && atExpansionItem ts then expansionItem false
  else failure

/-- Reads items of another language, given how they are called. -/
def foreignItems (g : Grammar) : Parser Unit := do
  discard (takesWord "unsafe")
  word "extern"
  optionalText
  itemsInside g (foreignMember g)

/-- Reads what is brought into use: a path, which may end with a new name, with everything, or with
several ends in curly brackets; `rooted` tells whether those may begin with a double colon. -/
def useTree (g : Grammar) (rooted : Bool) : Parser Unit := do
  let ts ← get
  if At.identifier ts || At.someWord ["self", "super", "crate", "try"] ts then
    discard anyWord
    if ← takes "::" then g.useTree false
    else if ← takesWord "as" then optionalName
  else if ← takes "*" then
    pure ()
  else
    inside .curly <| list do
      let root ← if rooted then takes "::" else pure false
      g.useTree (rooted && !root)

/-- Reads what is brought into use, behind its keyword. -/
def useItem (g : Grammar) : Parser Unit := do
  word "use"
  let root ← takes "::"
  g.useTree !root
  semicolon

/-! ## Items -/

/-- Reads an item behind its attributes. -/
def declaration (g : Grammar) : Parser Unit := do
  let visible ← visibility
  let ts ← get
  let next := ts.drop 1
  if atFunction false ts then
    signature g false
    optionalBody g
  else if At.word "extern" ts then
    if At.word "crate" next then packageItem
    else if visible then failure
    else foreignItems g
  else if At.word "use" ts then useItem g
  else if At.word "static" ts then staticItem g
  else if At.word "const" ts then constantItem g
  else if At.word "unsafe" ts then
    if At.word "trait" next then
      word "unsafe"
      traitItem g false
    else if At.word "auto" next && At.word "trait" (ts.drop 2) then
      word "unsafe"
      word "auto"
      traitItem g false
    else if At.word "impl" next then implementation g
    else if At.word "extern" next && !visible then foreignItems g
    else if At.word "mod" next then moduleItem g
    else failure
  else if At.word "mod" ts then moduleItem g
  else if At.word "type" ts then typeItem g .front
  else if At.word "struct" ts then structItem g
  else if At.word "enum" ts then enumItem g
  else if At.word "union" ts && At.identifier next then unionItem g
  else if At.word "trait" ts then traitItem g true
  else if At.word "auto" ts && At.word "trait" next then
    word "auto"
    traitItem g false
  else if At.word "impl" ts || (At.word "default" ts && !At.symbol "!" next) then implementation g
  else if At.word "macro" ts then expansionRule
  else if !visible && atExpansionItem ts then expansionItem true
  else failure

/-- Reads an item. -/
def item (g : Grammar) : Parser Unit := do
  discard (attributes g)
  declaration g

end LiveMarkup.Code
