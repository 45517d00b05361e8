import LiveMarkup.Code.Item

/-!
# Statements

What a block is made of: items, bindings and expressions, with semicolons behind those that do not end
by themselves.
-/

namespace LiveMarkup.Code

open LiveMarkup.Code.Parser

/-- Whether a variable that is there all the time comes next rather than an expression. -/
def atStaticItem : Look := fun ts =>
  At.word "static" ts && (At.word "mut" (ts.drop 1) || At.identifier (ts.drop 1))

/-- Whether a constant comes next rather than an expression. -/
def atConstantItem : Look := fun ts =>
  let next := ts.drop 1
  At.word "const" ts
    && !(At.someOf [At.group .curly, At.someWord ["static", "move"], At.symbol "|"] next
      || (At.word "async" next && !At.someWord ["unsafe", "extern", "fn"] (ts.drop 2)))

/-- Whether an item comes next rather than an expression. -/
def atItem : Look := fun ts =>
  let next := ts.drop 1
  At.someWord ["pub", "extern", "use", "fn", "mod", "type", "struct", "enum", "trait", "impl",
      "macro"] ts
    || (At.word "crate" ts && !At.symbol "::" next)
    || atStaticItem ts
    || atConstantItem ts
    || (At.word "unsafe" ts && !At.group .curly next)
    || (At.word "async" ts && At.someWord ["unsafe", "extern", "fn"] next)
    || (At.word "union" ts && At.identifier next)
    || (At.word "auto" ts && At.word "trait" next)
    || (At.word "default" ts && At.someWord ["unsafe", "impl"] next)

/-- What comes next behind a path and an exclamation mark. -/
inductive ExpansionPlace where
  /-- No expansion. -/
  | none
  /-- A name: it is an item. -/
  | item
  /-- Curly brackets that nothing is taken from: it is a statement. -/
  | statement
  deriving DecidableEq, Repr

/-- What the expansion is that comes next, if one does. -/
def expansionPlace (ts : List Token) : ExpansionPlace :=
  match wordPath ts with
  | none => .none
  | some (_, rest) =>
    let next := rest.drop 1
    let behind := rest.drop 2
    if !At.symbol "!" rest then .none
    else if At.identifier next || At.word "try" next then .item
    else if At.group .curly next
        && !((At.symbol "." behind && !At.symbol ".." behind) || At.symbol "?" behind) then
      .statement
    else .none

/-- Whether the tokens that were read, of `ts` down to `rest`, end with curly brackets. -/
def endsCurly (ts rest : List Token) : Bool :=
  match (ts.take (ts.length - rest.length)).getLast? with
  | some (.group .curly _) => true
  | _ => false

/-- Reads a binding of a pattern to a value. If the value need not fit, a block says what is done then;
such a value does not end with curly brackets. -/
def localBinding (g : Grammar) : Parser Unit := do
  word "let"
  discard g.pattern
  if ← takes ":" then g.type true
  if ← takes "=" then
    let value ← get
    g.expression
    let rest ← get
    if At.word "else" rest && !endsCurly value rest then
      word "else"
      block g
  semicolon

/-- Reads a statement, and tells whether it ends by itself. -/
def statement (g : Grammar) : Parser Bool := do
  discard (attributes g)
  let ts ← get
  match expansionPlace ts with
  | .statement =>
    wordPath
    discard expansion
    discard (takes ";")
    return true
  | .item =>
    declaration g
    return true
  | .none =>
    if At.word "let" ts then
      localBinding g
      return true
    else if atItem ts then
      declaration g
      return true
    else
      let form ← g.leading
      let closed ← takes ";"
      return closed || form = .block || form = .expansion

/-- Reads the statements of a block. One that does not end by itself is the last. -/
def statements (g : Grammar) : Parser Unit :=
  iterate (fun _ => do
    repeatWhile (At.symbol ";") semicolon
    if At.theEnd (← get) then return none
    let closed ← statement g
    if At.theEnd (← get) then return none
    if !closed then failure
    return some ()) ()

end LiveMarkup.Code
