import LiveMarkup.Text.Case

/-!
# Markup documents

A document has one root element, and instructions around it. An element opens with a tag, which
carries its attributes and the line that it stands on, and holds elements, character data, comments
and instructions.
-/

namespace LiveMarkup.Markup

/-- An attribute as written, its references replaced. -/
structure Attribute where
  name : String
  value : String
  deriving DecidableEq, Repr

/-- The opening of an element. -/
structure Tag where
  name : String
  attributes : List Attribute
  /-- The line of the angle bracket that opens the element. -/
  line : Nat
  deriving DecidableEq, Repr

/-- A piece of the content of an element. -/
inductive Node where
  | element (tag : Tag) (content : List Node)
  | text (line : Nat) (text : String)
  | comment (line : Nat) (body : String)
  | instruction (line : Nat) (target data : String)
  deriving Repr

/-- An instruction outside the root element. -/
structure Instruction where
  target : String
  data : String
  deriving DecidableEq, Repr

/-- A document: its instructions outside the root element, and the root element. -/
structure Document where
  instructions : List Instruction
  root : Tag
  content : List Node
  deriving Repr

/-- The value of the first attribute with the given name, as names are written. -/
def Tag.attribute? (tag : Tag) (name : String) : Option String :=
  (tag.attributes.find? (·.name == name)).map Attribute.value

namespace Node

/-- The name of a node: that of an element or the target of an instruction, and for character data
and comments a name that no element can have. -/
def name : Node → String
  | element tag _ => tag.name
  | text .. => "#text"
  | comment .. => "#comment"
  | instruction _ target _ => target

/-- The line on which the node begins. -/
def line : Node → Nat
  | element tag _ => tag.line
  | text line _ => line
  | comment line _ => line
  | instruction line _ _ => line

/-- The attributes of an element; no other node has any. -/
def attributes : Node → List Attribute
  | element tag _ => tag.attributes
  | _ => []

/-- The character data of a node that is not an element. -/
def value? : Node → Option String
  | element .. => none
  | text _ data => some data
  | comment _ body => some body
  | instruction _ _ data => some data

/-- The content of an element; no other node has any. -/
def content : Node → List Node
  | element _ content => content
  | _ => []

/-- Whether the node is an element. -/
def isElement : Node → Bool
  | element .. => true
  | _ => false

/-- Whether the node is an instruction. -/
def isInstruction : Node → Bool
  | instruction .. => true
  | _ => false

mutual

/-- The tags of the elements in a node, in document order. -/
def tags : Node → List Tag
  | element tag content => tag :: tagsAll content
  | _ => []

/-- The tags of the elements in a list of nodes, in document order. -/
def tagsAll : List Node → List Tag
  | [] => []
  | node :: rest => tags node ++ tagsAll rest

end

end Node

namespace Document

/-- The root element as a node. -/
def rootNode (document : Document) : Node :=
  .element document.root document.content

/-- The tags of all elements, in document order. -/
def tags (document : Document) : List Tag :=
  document.rootNode.tags

/-- The data of the instructions that ask for an import, in document order. -/
def imports (document : Document) : List String :=
  (document.instructions.filter (Text.equalFold ·.target "using")).map Instruction.data

end Document

end LiveMarkup.Markup
