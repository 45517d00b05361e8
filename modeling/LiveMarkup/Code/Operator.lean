import LiveMarkup.Code.Pattern

/-!
# Operators

Binary operators by their precedence, and how an expression goes on behind its first operand. An operator
takes for its right side all that holds together more strongly than itself; assignments take other
assignments along. Comparisons do not follow each other, and nothing goes on behind a range.
-/

namespace LiveMarkup.Code

open LiveMarkup.Code.Parser

/-- The binary operators, those in front that others begin with. -/
def binaryOperators : List (String × Precedence) :=
  [("+=", .assignment), ("-=", .assignment), ("*=", .assignment), ("/=", .assignment),
    ("%=", .assignment), ("^=", .assignment), ("&=", .assignment), ("|=", .assignment),
    ("<<=", .assignment), (">>=", .assignment), ("&&", .and), ("||", .or), ("<<", .shift),
    (">>", .shift), ("==", .comparison), ("<=", .comparison), ("!=", .comparison),
    (">=", .comparison), ("+", .sum), ("-", .sum), ("*", .product), ("/", .product),
    ("%", .product), ("^", .bitXor), ("&", .bitAnd), ("|", .bitOr), ("<", .comparison),
    (">", .comparison)]

/-- The binary operator that comes next. -/
def operator? (ts : List Token) : Option (String × Precedence) :=
  binaryOperators.find? fun op => At.symbol op.1 ts

/-- Whether an equals sign comes next that assigns. -/
def atAssignment : Look := fun ts =>
  At.symbol "=" ts && !At.symbol "=>" ts

/-- How strongly what comes next holds together with what stands in front of it. -/
def nextPrecedence (ts : List Token) : Precedence :=
  match operator? ts with
  | some (_, precedence) => precedence
  | none =>
    if atAssignment ts then .assignment
    else if At.symbol ".." ts then .range
    else if At.word "as" ts then .cast
    else .lowest

/-- Reads the right side of an operator. -/
def rightSide (g : Grammar) (curly : Bool) (precedence : Precedence) : Parser Unit := do
  let first ← g.operand curly
  discard <| iterate (fun form => do
    let ts ← get
    let next := nextPrecedence ts
    if precedence.rank < next.rank || (next = precedence && precedence = .assignment) then
      let form ← g.operation form curly next
      return if (← get).length < ts.length then some form else none
    else
      return none) first

/-- Symbols and keywords behind the dots of a range that it has no end in front of. -/
def atNoEnd (curly : Bool) : Look := fun ts =>
  At.someOf [At.theEnd, At.symbol ",", At.symbol ";", At.symbol "?", At.symbol "=>", At.symbol "=",
      At.symbol "+", At.symbol "/", At.symbol "%", At.symbol "^", At.symbol ">", At.symbol "<=",
      At.symbol "!=", At.symbol "-=", At.symbol "*=", At.symbol "&=", At.symbol "|=",
      At.symbol "<<=", At.word "as"] ts
    || (At.symbol "." ts && !At.symbol ".." ts)
    || (!curly && At.group .curly ts)

/-- Reads a range from its dots on. -/
def rangeOnward (g : Grammar) (curly : Bool) : Parser Unit := do
  let inclusive ← rangeDots false
  if inclusive || !atNoEnd curly (← get) then rightSide g curly .range

/-- Whether something comes next that cannot follow a type that a value is taken for. -/
def atCallOrMember : Look := fun ts =>
  At.someOf [At.symbol "?", At.group .square, At.group .round] ts
    || (At.symbol "." ts && !At.symbol ".." ts)

/-- Reads the next operator behind an expression of a form, with what belongs to it, unless it holds
together less strongly than `least`; then there is none. -/
def nextOperation? (g : Grammar) (curly : Bool) (least : Precedence) (form : ExpressionForm) :
    Parser (Option ExpressionForm) := do
  let ts ← get
  let reaches (precedence : Precedence) : Bool := least.rank ≤ precedence.rank
  if form = .range then
    return none
  else
    match operator? ts with
    | some (operator, precedence) =>
      if !reaches precedence then
        return none
      else if precedence = .comparison then
        if form = .comparison then failure
        symbol operator
        rightSide g curly precedence
        return some .comparison
      else
        symbol operator
        rightSide g curly precedence
        return some .other
    | none =>
      if reaches .assignment && atAssignment ts then
        symbol "="
        rightSide g curly .assignment
        return some .other
      else if reaches .range && At.symbol ".." ts then
        rangeOnward g curly
        return some .range
      else if reaches .cast && At.word "as" ts then
        word "as"
        g.type false
        if atCallOrMember (← get) then failure
        return some .other
      else
        return none

/-- Reads what follows the operand of an expression. -/
def operation (g : Grammar) (form : ExpressionForm) (curly : Bool) (least : Precedence) :
    Parser ExpressionForm :=
  iterate (nextOperation? g curly least) form

/-- Reads an expression; `curly` tells whether curly brackets behind a path give the fields of a
value. -/
def expressionForm (g : Grammar) (curly : Bool) : Parser ExpressionForm := do
  g.operation (← g.operand curly) curly .lowest

end LiveMarkup.Code
