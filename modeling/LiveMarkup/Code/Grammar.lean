import LiveMarkup.Code.Parser

/-!
# Grammars

Pieces of code nest: types stand in expressions, expressions in blocks, blocks in types. A `Phrase` is a
piece that others are made of, and a `Grammar` says how each is read. The modules behind this one give
the rule of each phrase for any grammar of the phrases in it; `Code.TypeName` ties them together.

Where it matters for what comes next what a piece has turned out to be, its form tells.
-/

namespace LiveMarkup.Code

/-- What a type has turned out to be. -/
inductive TypeForm where
  /-- A path of one segment. -/
  | name
  /-- Another path; it begins with no type. -/
  | path
  /-- A single bound in the place of a type. -/
  | bound
  | other
  deriving DecidableEq, Repr

/-- What an expression has turned out to be. -/
inductive ExpressionForm where
  /-- One that ends with a block and can be a statement as it is. -/
  | block
  /-- A call with curly brackets of what is expanded in its place. -/
  | expansion
  | range
  | comparison
  | other
  deriving DecidableEq, Repr

/-- What a pattern has turned out to be. -/
inductive PatternForm where
  /-- A range without a beginning or without an end. -/
  | openRange
  | other
  deriving DecidableEq, Repr

/-- How strongly the parts of an expression hold together, the weakest first. -/
inductive Precedence where
  | lowest
  | assignment
  | range
  | or
  | and
  | binding
  | comparison
  | bitOr
  | bitXor
  | bitAnd
  | shift
  | sum
  | product
  | cast
  deriving DecidableEq, Repr

/-- The place of a precedence among all, the weakest first. -/
def Precedence.rank : Precedence → Nat
  | .lowest => 0
  | .assignment => 1
  | .range => 2
  | .or => 3
  | .and => 4
  | .binding => 5
  | .comparison => 6
  | .bitOr => 7
  | .bitXor => 8
  | .bitAnd => 9
  | .shift => 10
  | .sum => 11
  | .product => 12
  | .cast => 13

/-- A piece of code that others are made of. -/
inductive Phrase where
  /-- A type; `plus` tells whether bounds joined by plus signs may stand for one. -/
  | type (plus : Bool)
  /-- A generic argument. -/
  | argument
  /-- A generic parameter. -/
  | parameter
  /-- An expression; `curly` tells whether curly brackets behind a path give the fields of a value. -/
  | expression (curly : Bool)
  /-- An expression without binary operators. -/
  | operand (curly : Bool)
  /-- What follows the operand of an expression, which was of a form, as far as it holds together at
  least as strongly as `least` says. -/
  | operation (form : ExpressionForm) (curly : Bool) (least : Precedence)
  /-- An expression at the beginning of a statement: if it can be a statement as it is, it ends there. -/
  | leading
  | pattern
  /-- The statements of a block. -/
  | statements
  | item
  /-- Fields with names, between curly brackets. -/
  | fields
  /-- What is brought into use; `rooted` tells whether a double colon may stand in front. -/
  | useTree (rooted : Bool)

/-- What is told of a phrase. -/
@[reducible] def Phrase.Form : Phrase → Type
  | .type _ => TypeForm
  | .expression _ => ExpressionForm
  | .operand _ => ExpressionForm
  | .operation _ _ _ => ExpressionForm
  | .leading => ExpressionForm
  | .pattern => PatternForm
  | _ => Unit

/-- How phrases are read. -/
abbrev Grammar := (p : Phrase) → Parser p.Form

namespace Grammar

/-- Reads a type and tells its form. -/
def typeForm (g : Grammar) (plus : Bool) : Parser TypeForm := g (.type plus)

/-- Reads a type. -/
def type (g : Grammar) (plus : Bool) : Parser Unit := discard (g.typeForm plus)

/-- Reads a generic argument. -/
def argument (g : Grammar) : Parser Unit := g .argument

/-- Reads a generic parameter. -/
def parameter (g : Grammar) : Parser Unit := g .parameter

/-- Reads an expression. -/
def expression (g : Grammar) : Parser Unit :=
  let read : Parser ExpressionForm := g (.expression true)
  discard read

/-- Reads an expression that a block follows. -/
def condition (g : Grammar) : Parser Unit :=
  let read : Parser ExpressionForm := g (.expression false)
  discard read

/-- Reads an expression without binary operators. -/
def operand (g : Grammar) (curly : Bool) : Parser ExpressionForm := g (.operand curly)

/-- Reads what follows an operand. -/
def operation (g : Grammar) (form : ExpressionForm) (curly : Bool) (least : Precedence) :
    Parser ExpressionForm :=
  g (.operation form curly least)

/-- Reads an expression at the beginning of a statement. -/
def leading (g : Grammar) : Parser ExpressionForm := g .leading

/-- Reads a pattern without alternatives. -/
def pattern (g : Grammar) : Parser PatternForm := g .pattern

/-- Reads the statements of a block. -/
def statements (g : Grammar) : Parser Unit := g .statements

/-- Reads an item. -/
def item (g : Grammar) : Parser Unit := g .item

/-- Reads fields with names, between curly brackets. -/
def fields (g : Grammar) : Parser Unit := g .fields

/-- Reads what is brought into use. -/
def useTree (g : Grammar) (rooted : Bool) : Parser Unit := g (.useTree rooted)

end Grammar

end LiveMarkup.Code
