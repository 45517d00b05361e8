import LiveMarkup.Markup.Reader
import LiveMarkup.Markup.Written

/-!
# The grammar of markup

A document is one root element with comments, instructions and white space around it, and a
declaration in front. White space is never skipped silently: the grammar says where it may stand.

Character data and values hold anything but what would end them, so `<` may stand in neither.
-/

namespace LiveMarkup.Markup.Grammar

open Reader

/-- White space of the grammar: space, tab, carriage return and line feed. -/
def isSpace (c : Char) : Bool :=
  c == ' ' || c == '\t' || c == '\r' || c == '\n'

/-- Whether a name may begin with `c`. -/
def isNameStart (c : Char) : Bool :=
  c.isAlpha || c == '_' || c == ':'

/-- Whether a name may go on with `c`. -/
def isNameChar (c : Char) : Bool :=
  c.isAlphanum || c == '_' || c == ':' || c == '-' || c == '.'

/-- Some white space. -/
def space : Reader (List Char) :=
  takeWhile1 isSpace

/-- White space, or nothing. -/
def optionalSpace : Reader (List Char) :=
  takeWhile isSpace

/-- The characters of a name. -/
def nameChars : Reader String := do
  let first ← satisfy isNameStart
  let rest ← takeWhile isNameChar
  return String.ofList (first :: rest)

/-- The name of an element or an attribute. -/
def name : Reader String :=
  named .name nameChars

/-- Text that ends in front of `stop`, and `stop` itself. -/
def body (stop : List Char) : Reader (List Char) := do
  let text ← takeUpTo stop
  literal stop
  return text

/-- A declaration, which says nothing that matters here. -/
def declaration : Reader Unit := do
  literal ['<', '?', 'x', 'm', 'l']
  let _ ← space
  let _ ← body ['?', '>']

/-- A processing instruction. -/
def instruction : Reader WrittenNode :=
  named .instruction do
    let start ← position
    literal ['<', '?']
    let target ← named .instructionTarget nameChars
    let data ← body ['?', '>']
    return .instruction start target data

/-- A comment. -/
def comment : Reader WrittenNode :=
  named .comment do
    let start ← position
    literal ['<', '!', '-', '-']
    let text ← body ['-', '-', '>']
    return .comment start text

/-- A section of character data in which nothing has a meaning. -/
def cdata : Reader WrittenNode :=
  named .cdata do
    let start ← position
    literal ['<', '!', '[', 'C', 'D', 'A', 'T', 'A', '[']
    let text ← body [']', ']', '>']
    return .cdata start text

/-- A run of character data. -/
def text : Reader WrittenNode :=
  named .text do
    let start ← position
    let raw ← takeWhile1 (· != '<')
    return .text start raw

/-- A value between two quotes of the given kind, and where it begins. -/
def quotedBy (quote : Char) : Reader (Text.Position × List Char) := do
  literal [quote]
  let start ← position
  let value ← takeWhile fun c => c != quote && c != '<'
  literal [quote]
  return (start, value)

/-- A value between quotes. -/
def quoted : Reader (Text.Position × List Char) :=
  orElse (quotedBy '"') (quotedBy '\'')

/-- An attribute, with the white space in front of it. -/
def attrib : Reader WrittenAttribute :=
  named .attrib do
    let start ← position
    let _ ← space
    let name ← name
    let _ ← optionalSpace
    literal ['=']
    let _ ← optionalSpace
    let (valueStart, value) ← quoted
    return ⟨start, name, valueStart, value⟩

/-- The tag that closes an element. -/
def closeTag : Reader WrittenClose :=
  named .closeTag do
    let start ← position
    literal ['<', '/']
    let name ← name
    let _ ← optionalSpace
    literal ['>']
    return ⟨start, name⟩

mutual

/-- An element, with at most `depth` pieces of content nested or in a row. -/
def elementWithin : Nat → Reader (WrittenTag × List WrittenNode)
  | 0 => fail
  | depth + 1 =>
    named .element do
      let start ← position
      literal ['<']
      let name ← name
      let attributes ← many attrib
      let _ ← optionalSpace
      orElse
        (do
          literal ['/', '>']
          return (⟨start, name, attributes, none⟩, []))
        (do
          literal ['>']
          let content ← contentWithin depth
          let close ← closeTag
          return (⟨start, name, attributes, some close⟩, content))

/-- The content of an element, at most `depth` pieces nested or in a row. -/
def contentWithin : Nat → Reader (List WrittenNode)
  | 0 => pure []
  | depth + 1 =>
    orElse
      (do
        let piece ←
          orElse (do
              let (tag, content) ← elementWithin depth
              return .element tag content) <|
            orElse comment <| orElse instruction <| orElse cdata text
        let rest ← contentWithin depth
        return piece :: rest)
      (pure [])

end

/-- An element. No piece of content is empty, so the length of the text bounds their number. -/
def element : Reader (WrittenTag × List WrittenNode) :=
  fun cursor trail => elementWithin (cursor.rest.length + 1) cursor trail

/-- A comment, an instruction or white space outside the root element. -/
def aside : Reader (Option WrittenNode) :=
  orElse (some <$> comment) <| orElse (some <$> instruction) <| (fun _ => none) <$> space

/-- A whole document. -/
def document : Reader WrittenDocument :=
  named .document do
    let _ ← optional declaration
    let prolog ← many aside
    let root ← optional element
    let epilog ← many aside
    named .endOfInput atEnd
    return ⟨prolog.filterMap id, root, epilog.filterMap id⟩

end LiveMarkup.Markup.Grammar
