import LiveMarkup.Code.Operator

/-!
# Expressions

What may stand between two operators: literals, paths and what is called or taken from them, values
written out part by part, closures, and the expressions that steer what is done next.
-/

namespace LiveMarkup.Code

open LiveMarkup.Code.Parser

/-! ## Calls and members -/

/-- Reads expressions in round brackets. -/
def callArguments (g : Grammar) : Parser Unit :=
  inside .round (list g.expression)

/-- Reads a member by its name or its place, behind its point; round brackets call a method. -/
def namedMember (g : Grammar) : Parser Unit := do
  let ts ← get
  if ← takesWord "await" then
    pure ()
  else
    member
    if At.identifier ts then
      if At.symbol "::" (← get) then
        discard (angles g)
        callArguments g
      else if At.group .round (← get) then
        callArguments g

/-- Reads what follows a point. A fractional number gives two places, of which the second may stand by
itself behind it. -/
def memberAccess (g : Grammar) : Parser Unit := fun ts =>
  match ts with
  | .literal (.fractional digits) :: rest =>
    if (pointSeparated digits.toList).all isPlaceNumber then
      if digits.toList.getLast? = some '.' then namedMember g rest else some ((), rest)
    else none
  | _ => namedMember g ts

/-- Reads the next call, index, member or question mark behind an operand of a form, if there is one. -/
def nextAccess? (g : Grammar) (form : ExpressionForm) : Parser (Option ExpressionForm) := do
  let ts ← get
  if At.group .round ts then
    callArguments g
    return some .other
  else if At.symbol "." ts && !At.symbol ".." ts && form ≠ .range then
    symbol "."
    memberAccess g
    return some .other
  else if At.group .square ts then
    inside .square g.expression
    return some .other
  else if At.symbol "?" ts && form ≠ .range then
    symbol "?"
    return some .other
  else
    return none

/-- Reads the calls, indices, members and question marks behind an operand. -/
def accesses (g : Grammar) (form : ExpressionForm) : Parser ExpressionForm :=
  iterate (nextAccess? g) form

/-! ## Values part by part -/

/-- Reads a field of a value that is written out. -/
def valueField (g : Grammar) : Parser Unit := do
  discard (attributes g)
  let ts ← get
  member
  if !At.identifier ts || At.symbol ":" (← get) then
    symbol ":"
    g.expression

/-- Reads the fields of a value that is written out. Two dots come in front of a value that the other
fields are taken from. -/
def valueFields (g : Grammar) : Parser Unit :=
  iterate (fun _ => do
    if At.theEnd (← get) then return none
    if ← takes ".." then
      if !At.theEnd (← get) then g.expression
      return none
    valueField g
    if ← takes "," then return some () else return none) ()

/-- Reads an expression that begins with a path. -/
def pathExpression (g : Grammar) (curly : Bool) : Parser ExpressionForm := do
  let form? ← qualifiedPath g true
  let ts ← get
  if atExpansion ts && form?.any PathForm.bare then
    return if (← expansion) = .curly then .expansion else .other
  else if curly && At.group .curly ts then
    inside .curly (valueFields g)
    return .other
  else
    return .other

/-- Reads the elements of a row, or one and how often it is there. -/
def elements (g : Grammar) : Parser Unit := do
  if !At.theEnd (← get) then
    g.expression
    if ← takes ";" then g.expression
    else if ← takes "," then list g.expression

/-! ## Steering -/

/-- Whether an expression comes next. -/
def atExpression : Look := fun ts =>
  At.someOf [At.anyWord, At.group .round, At.group .square, At.group .curly, At.literal,
      At.symbol "..", At.symbol "::", At.lifetime, At.symbol "#"] ts
    || (At.symbol "!" ts && !At.symbol "!=" ts)
    || (At.symbol "-" ts && !At.symbol "-=" ts && !At.symbol "->" ts)
    || (At.symbol "*" ts && !At.symbol "*=" ts)
    || (At.symbol "|" ts && !At.symbol "|=" ts)
    || (At.symbol "&" ts && !At.symbol "&=" ts)
    || (At.symbol "<" ts && !At.symbol "<=" ts && !At.symbol "<<=" ts)

/-- Reads an expression if one comes next. -/
def optionalExpression (g : Grammar) : Parser Unit := do
  if atExpression (← get) then g.expression

/-- Reads a way out of a loop or a block: its name may come behind it, and a value. -/
def breakOut (g : Grammar) (curly : Bool) : Parser Unit := do
  word "break"
  if At.lifetime (← get) then
    lifetime
    if At.symbol ":" (← get) then failure
  let ts ← get
  if curly || !At.group .curly ts then optionalExpression g

/-- Reads branches by conditions, one behind the other. -/
def branches (g : Grammar) : Parser Unit :=
  iterate (fun _ => do
    word "if"
    g.condition
    block g
    if ← takesWord "else" then
      if At.word "if" (← get) then return some ()
      block g
    return none) ()

/-- Reads an arm of a choice by patterns. A comma ends it unless its expression ends by itself. -/
def arm (g : Grammar) : Parser Unit := do
  discard (attributes g)
  discard (alternatives g)
  if ← takesWord "if" then g.expression
  symbol "=>"
  let form ← g.leading
  if !(← takes ",") && form ≠ .block && !At.theEnd (← get) then failure

/-- Reads a choice by patterns. -/
def choice (g : Grammar) : Parser Unit := do
  word "match"
  g.condition
  inside .curly do
    innerAttributes g
    repeatWhile (fun ts => !At.theEnd ts) (arm g)

/-- Reads a loop with a condition. -/
def conditionalLoop (g : Grammar) : Parser Unit := do
  word "while"
  g.condition
  body g

/-- Reads a loop over what a value gives. -/
def loopOver (g : Grammar) : Parser Unit := do
  word "for"
  discard (alternatives g)
  word "in"
  g.condition
  body g

/-- Reads an endless loop. -/
def endlessLoop (g : Grammar) : Parser Unit := do
  word "loop"
  body g

/-- Reads a loop or a block behind its name. -/
def labelled (g : Grammar) : Parser Unit := do
  lifetime
  symbol ":"
  let ts ← get
  if At.word "while" ts then conditionalLoop g
  else if At.word "for" ts then loopOver g
  else if At.word "loop" ts then endlessLoop g
  else body g

/-- Reads the binding of a pattern as a condition. -/
def bindingCondition (g : Grammar) (curly : Bool) : Parser Unit := do
  word "let"
  discard (alternatives g)
  symbol "="
  discard (g.operation (← g.operand curly) curly .comparison)

/-! ## Closures -/

/-- Reads a parameter of a closure. -/
def closureParameter (g : Grammar) : Parser Unit := do
  discard (attributes g)
  discard g.pattern
  if ← takes ":" then g.type true

/-- Reads a closure. What it gives back is an expression, or a block if its type is said. -/
def closure (g : Grammar) (curly : Bool) : Parser Unit := do
  discard (binder g)
  discard (takesWord "const")
  discard (takesWord "static")
  discard (takesWord "async")
  discard (takesWord "move")
  symbol "|"
  punctuated "," (At.symbol "|") (closureParameter g)
  symbol "|"
  if ← takes "->" then
    g.type true
    block g
  else if curly then g.expression
  else g.condition

/-- Whether a closure comes next. -/
def atClosure : Look := fun ts =>
  let next := ts.drop 1
  At.someOf [At.symbol "|", At.word "move", At.word "static"] ts
    || (At.word "for" ts && atGenerics next)
    || (At.word "const" ts && !At.group .curly next)
    || (At.word "async" ts && (At.symbol "|" next || At.word "move" next))

/-! ## Operands -/

/-- Whether a block comes next that is carried out at another time. -/
def atLaterBlock : Look := fun ts =>
  let next := ts.drop 1
  At.word "async" ts
    && (At.group .curly next || (At.word "move" next && At.group .curly (ts.drop 2)))

/-- Reads a block that is carried out at another time. -/
def laterBlock (g : Grammar) : Parser Unit := do
  word "async"
  discard (takesWord "move")
  block g

/-- Reads a name that the language itself has a meaning for, with anything in round brackets. -/
def builtIn : Parser Unit := do
  word "builtin"
  symbol "#"
  discard identifier
  if (← anyGroup) ≠ .round then failure

/-- Whether an expression that can be a statement as it is comes next, its name perhaps in front. -/
def atBlockExpression : Look := fun ts =>
  let next := ts.drop 1
  At.someOf [At.someWord ["if", "while", "loop", "match", "unsafe"], At.group .curly, At.lifetime] ts
    || (At.word "for" ts && !atGenerics next)
    || (At.someWord ["try", "const"] ts && At.group .curly next)

/-- Reads an expression that can be a statement as it is. -/
def blockExpression (g : Grammar) : Parser Unit := do
  let ts ← get
  if At.word "if" ts then branches g
  else if At.word "while" ts then conditionalLoop g
  else if At.word "for" ts then loopOver g
  else if At.word "loop" ts then endlessLoop g
  else if At.word "match" ts then choice g
  else if At.lifetime ts then labelled g
  else if ← takesWord "try" then block g
  else if ← takesWord "unsafe" then body g
  else if ← takesWord "const" then body g
  else body g

/-- Whether an expression that begins with a path comes next. -/
def atPathExpression : Look := fun ts =>
  let next := ts.drop 1
  At.someOf [At.identifier, At.symbol "::", At.symbol "<", At.someWord pathKeywords] ts
    || (At.word "try" ts && (At.symbol "!" next || At.symbol "::" next))

/-- Reads an operand without what is called or taken from it. -/
def atom (g : Grammar) (curly : Bool) : Parser ExpressionForm := do
  let ts ← get
  let other (piece : Parser Unit) : Parser ExpressionForm := do
    piece
    return .other
  if At.literal ts then other literal
  else if atLaterBlock ts then other (laterBlock g)
  else if atBlockExpression ts then
    blockExpression g
    return .block
  else if atClosure ts then other (closure g curly)
  else if At.word "builtin" ts && At.symbol "#" (ts.drop 1) then other builtIn
  else if atPathExpression ts then pathExpression g curly
  else if At.group .round ts then other (callArguments g)
  else if At.group .square ts then other (inside .square (elements g))
  else if At.word "break" ts then other (breakOut g curly)
  else if ← takesWord "continue" then other optionalLifetime
  else if ← takesWord "return" then other (optionalExpression g)
  else if ← takesWord "yield" then other (optionalExpression g)
  else if ← takesWord "become" then other g.expression
  else if At.word "let" ts then other (bindingCondition g curly)
  else if ← takesWord "_" then return .other
  else if At.symbol ".." ts then
    rangeOnward g curly
    return .range
  else failure

/-- Reads an expression without binary operators: what stands in front of an operand, the operand, and
what is called or taken from it. A range has no attributes. -/
def operand (g : Grammar) (curly : Bool) : Parser ExpressionForm := do
  let attributed ← attributes g
  let ts ← get
  if ← takes "&" then
    let next := ts.drop 2
    if At.word "raw" (ts.drop 1) && (At.word "mut" next || At.word "const" next) then
      word "raw"
      discard anyWord
    else
      discard (takesWord "mut")
    discard (g.operand curly)
    return .other
  else if At.someOf [At.symbol "*", At.symbol "!", At.symbol "-"] ts then
    symbol (if At.symbol "*" ts then "*" else if At.symbol "!" ts then "!" else "-")
    discard (g.operand curly)
    return .other
  else
    let form ← accesses g (← atom g curly)
    if attributed && form = .range then failure
    return form

/-- Reads an expression at the beginning of a statement. One that can be a statement as it is goes on
with a member or a question mark only. -/
def leading (g : Grammar) : Parser ExpressionForm := do
  discard (attributes g)
  if atBlockExpression (← get) then
    blockExpression g
    let ts ← get
    if At.symbol "?" ts || (At.symbol "." ts && !At.symbol ".." ts) then
      g.operation (← accesses g .block) true .lowest
    else
      return .block
  else
    g.operation (← g.operand true) true .lowest

end LiveMarkup.Code
