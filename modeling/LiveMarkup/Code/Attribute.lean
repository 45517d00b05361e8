import LiveMarkup.Code.Path

/-!
# Attributes

A number sign and square brackets in front of a piece of code say something about it; with an
exclamation mark between them they say it about what they stand in.
-/

namespace LiveMarkup.Code

open LiveMarkup.Code.Parser

/-- Reads what an attribute says: a path, and behind it a group or an equals sign and a value. -/
def attributeContent (g : Grammar) : Parser Unit := do
  if !(← takesWord "unsafe") then wordPath
  let ts ← get
  if At.someOf [At.group .round, At.group .square, At.group .curly] ts then
    discard anyGroup
  else if ← takes "=" then
    let value ← get
    if At.symbol "#" value && At.group .square (value.drop 1) then failure
    g.expression

/-- Reads attributes of what follows them, and tells whether there are any. -/
def attributes (g : Grammar) : Parser Bool := do
  let found := At.symbol "#" (← get)
  repeatWhile (At.symbol "#") do
    symbol "#"
    inside .square (attributeContent g)
  return found

/-- Reads attributes of what they stand in. -/
def innerAttributes (g : Grammar) : Parser Unit :=
  repeatWhile (fun ts => At.symbol "#" ts && At.symbol "!" (ts.drop 1)) do
    symbol "#"
    symbol "!"
    inside .square (attributeContent g)

/-- Reads a block of statements. -/
def block (g : Grammar) : Parser Unit :=
  inside .curly g.statements

/-- Reads a block of statements, which may begin with attributes. -/
def body (g : Grammar) : Parser Unit :=
  inside .curly do
    innerAttributes g
    g.statements

end LiveMarkup.Code
