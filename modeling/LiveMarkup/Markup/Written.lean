import LiveMarkup.Text.Position

/-!
# Markup as it is written

The tree of a document as the grammar sees it: names and character data as written, with the positions
at which they begin. Whether it makes a document is checked afterwards: that references stand for
characters, that attribute names are distinct, and that tags are closed by their own names.
-/

namespace LiveMarkup.Markup

open Text (Position)

/-- An attribute as it is written. -/
structure WrittenAttribute where
  /-- Where the attribute begins, which is at the white space in front of its name. -/
  start : Position
  name : String
  /-- Where the value begins, behind the quote. -/
  valueStart : Position
  value : List Char
  deriving Repr

/-- The tag that closes an element. -/
structure WrittenClose where
  start : Position
  name : String
  deriving Repr

/-- The tags of an element as they are written. -/
structure WrittenTag where
  start : Position
  name : String
  attributes : List WrittenAttribute
  /-- The closing tag, if the element does not close itself. -/
  close : Option WrittenClose
  deriving Repr

/-- A piece of content as it is written. -/
inductive WrittenNode where
  | element (tag : WrittenTag) (content : List WrittenNode)
  | text (start : Position) (raw : List Char)
  | cdata (start : Position) (body : List Char)
  | comment (start : Position) (body : List Char)
  | instruction (start : Position) (target : String) (data : List Char)
  deriving Repr

/-- A document as it is written: the pieces before the root element, the element if there is one, and
the pieces behind it. White space between them is left out. -/
structure WrittenDocument where
  prolog : List WrittenNode
  root : Option (WrittenTag × List WrittenNode)
  epilog : List WrittenNode

end LiveMarkup.Markup
