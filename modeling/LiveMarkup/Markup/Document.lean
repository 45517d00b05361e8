import LiveMarkup.Text.Blank
import LiveMarkup.Markup.Node
import LiveMarkup.Markup.Reference
import LiveMarkup.Markup.Grammar
import LiveMarkup.Markup.Error

/-!
# Reading documents

A text is read in two steps. The grammar gives the tree as it is written; then the tree is checked in
document order and its references are replaced. A text that leaves the grammar anywhere is never
checked.

Runs of character data that hold nothing but white space separate elements and are dropped.
-/

namespace LiveMarkup.Markup

open Text (Position)

/-- Text with its references replaced; it begins at `start`, and so does a fault in it. -/
def readText (start : Position) (raw : List Char) : Except ReadError String :=
  match Reference.decode raw with
  | .ok text => .ok (String.ofList text)
  | .error written => .error (.malformed start (.unknownReference (String.ofList written)))

/-- The attributes of an element with their references replaced, behind those read before. A name may
occur once. -/
def readAttributes (element : String) (before : List Attribute) :
    List WrittenAttribute → Except ReadError (List Attribute)
  | [] => .ok before
  | written :: rest => do
    let value ← readText written.valueStart written.value
    if before.any (·.name == written.name) then
      .error (.malformed written.start (.duplicateAttribute written.name element))
    else readAttributes element (before ++ [⟨written.name, value⟩]) rest

/-- Whether an element is closed by its own name. -/
def WrittenTag.checkClose (tag : WrittenTag) : Except ReadError Unit :=
  match tag.close with
  | none => .ok ()
  | some close =>
    if close.name = tag.name then .ok ()
    else .error (.malformed close.start (.mismatchedClose close.name tag.name tag.start.line))

/-- Data of an instruction, without the white space around it. -/
def instructionData (data : List Char) : String :=
  String.ofList (Text.trim data)

mutual

/-- A piece of content; none if it is to be dropped. -/
def WrittenNode.read : WrittenNode → Except ReadError (Option Node)
  | .element tag content => do
    let attributes ← readAttributes tag.name [] tag.attributes
    let nodes ← WrittenNode.readAll content
    tag.checkClose
    return some (.element ⟨tag.name, attributes, tag.start.line⟩ nodes)
  | .text start raw =>
    if raw.all Text.isBlank then .ok none
    else do
      let text ← readText start raw
      return some (.text start.line text)
  | .cdata start body => .ok (some (.text start.line (String.ofList body)))
  | .comment start body => .ok (some (.comment start.line (String.ofList body)))
  | .instruction start target data =>
    .ok (some (.instruction start.line target (instructionData data)))

/-- Pieces of content in document order. -/
def WrittenNode.readAll : List WrittenNode → Except ReadError (List Node)
  | [] => .ok []
  | written :: rest => do
    let node ← written.read
    let nodes ← WrittenNode.readAll rest
    return match node with
      | some node => node :: nodes
      | none => nodes

end

/-- The instructions among pieces that stand outside the root element. -/
def instructionsOf (pieces : List WrittenNode) : List Instruction :=
  pieces.filterMap fun
    | .instruction _ target data => some ⟨target, instructionData data⟩
    | _ => none

/-- A document with a root element. -/
def WrittenDocument.read (written : WrittenDocument) : Except ReadError Document :=
  match written.root with
  | none => .error .noRootElement
  | some (tag, content) => do
    let attributes ← readAttributes tag.name [] tag.attributes
    let nodes ← WrittenNode.readAll content
    tag.checkClose
    return {
      instructions := instructionsOf written.prolog ++ instructionsOf written.epilog
      root := ⟨tag.name, attributes, tag.start.line⟩
      content := nodes }

/-- The text without a byte-order mark in front. -/
def dropByteOrderMark : List Char → List Char
  | c :: rest => if c = '\ufeff' then rest else c :: rest
  | [] => []

/-- The tree of a text as it is written. -/
def readWritten (text : List Char) : Except ReadError WrittenDocument :=
  match Grammar.document (.start text) .blank with
  | (some (written, _), _) => .ok written
  | (none, trail) => .error (.malformed trail.furthest (.unexpected trail.expected))

/-- The document that a text holds. Positions are those in the text behind a byte-order mark. -/
def Document.read (source : String) : Except ReadError Document := do
  let written ← readWritten (dropByteOrderMark source.toList)
  written.read

end LiveMarkup.Markup
