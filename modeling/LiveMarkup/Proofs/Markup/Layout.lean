import LiveMarkup.Markup.Document
import LiveMarkup.Proofs.Markup.Spelling

/-!
# How a document may be laid out

The same document can be written in many ways: with white space in the places
that admit it, with either kind of quotes, with references for characters, with
an element without content closing itself or not, with comments and white space
around the root element. The relations of this module say of a text and a
document that the text is one of the ways. They follow the text from the left,
and say nothing of how texts are read.

Nodes carry the line that they begin on, so content is laid out from a line on.

## Main definitions

* `AttributesText`, `TagText` — the attributes of an element, and its tag.
* `ContentText` — what stands between two tags.
* `DocumentText`, `RootlessText` — a whole document, and all of one but the root
  element.
-/

namespace LiveMarkup.Markup

/-! ## Characters and names -/

/-- White space as the grammar knows it, or nothing. -/
def IsGap (text : List Char) : Prop :=
  ∀ c ∈ text, Grammar.isSpace c = true

/-- White space in the sense of Unicode, or nothing. -/
def IsBlank (text : List Char) : Prop :=
  ∀ c ∈ text, Text.isBlank c = true

/-- The name of an element, of an attribute or of the target of an instruction. -/
def IsName (name : List Char) : Prop :=
  ∃ first rest, name = first :: rest ∧ Grammar.isNameStart first = true ∧
    ∀ c ∈ rest, Grammar.isNameChar c = true

/-- Characters that stand for themselves in character data. -/
def LegalInText (c : Char) : Prop :=
  c ≠ '<' ∧ c ≠ '&'

/-- Characters that stand for themselves between quotes of the given kind. -/
def LegalInValue (quote c : Char) : Prop :=
  c ≠ quote ∧ c ≠ '<' ∧ c ≠ '&'

instance (text : List Char) : Decidable (IsGap text) :=
  decidable_of_iff (text.all Grammar.isSpace = true) List.all_eq_true

instance (text : List Char) : Decidable (IsBlank text) :=
  decidable_of_iff (text.all Text.isBlank = true) List.all_eq_true

instance (c : Char) : Decidable (LegalInText c) :=
  inferInstanceAs (Decidable (c ≠ '<' ∧ c ≠ '&'))

instance (quote c : Char) : Decidable (LegalInValue quote c) :=
  inferInstanceAs (Decidable (c ≠ quote ∧ c ≠ '<' ∧ c ≠ '&'))

/-- The line behind a text that begins on a line. -/
def lineAfter (line : Nat) (text : List Char) : Nat :=
  line + text.count '\n'

/-! ## Pieces without content -/

/-- A text enclosed by an opening and the first stop behind it. -/
def Enclosed (opening stop piece body : List Char) : Prop :=
  piece = opening ++ (body ++ stop) ∧ ¬ stop <:+: body

/-- A comment with its body. -/
def CommentText (piece body : List Char) : Prop :=
  Enclosed ['<', '!', '-', '-'] ['-', '-', '>'] piece body

/-- A section of character data in which nothing has a meaning, with its body. -/
def SectionText (piece body : List Char) : Prop :=
  Enclosed ['<', '!', '[', 'C', 'D', 'A', 'T', 'A', '['] [']', ']', '>'] piece body

/-- No white space stands at either end. -/
def Trimmed (data : List Char) : Prop :=
  (∀ c ∈ data.head?, Text.isBlank c = false) ∧ ∀ c ∈ data.getLast?, Text.isBlank c = false

/-- An instruction with its target and its data. White space around the data
does not belong to it; something has to end the target. -/
inductive InstructionText : List Char → List Char → List Char → Prop where
  | mk {target before data behind : List Char} (hTarget : IsName target)
      (hBefore : IsBlank before) (hBehind : IsBlank behind) (hData : Trimmed data)
      (hStop : ¬ ['?', '>'] <:+: data)
      (hEnds : ∀ c ∈ (before ++ (data ++ behind)).head?, Grammar.isNameChar c = false) :
      InstructionText (['<', '?'] ++ (target ++ ((before ++ (data ++ behind)) ++ ['?', '>'])))
        target data

/-! ## Tags -/

/-- An attribute, with the white space in front of it. -/
inductive AttributeText : List Char → Attribute → Prop where
  | mk {gap name before behind written value : List Char} {quote : Char} (hSpace : gap ≠ [])
      (hGap : IsGap gap) (hName : IsName name) (hBefore : IsGap before) (hBehind : IsGap behind)
      (hQuote : quote = '"' ∨ quote = '\'') (hValue : Spells (LegalInValue quote) written value) :
      AttributeText
        (gap ++ (name ++ (before ++ (['='] ++ (behind ++ ([quote] ++ (written ++ [quote])))))))
        ⟨String.ofList name, String.ofList value⟩

/-- Attributes in a row. -/
inductive AttributesText : List Char → List Attribute → Prop where
  | nil : AttributesText [] []
  | cons {piece text : List Char} {first : Attribute} {attributes : List Attribute}
      (hPiece : AttributeText piece first) (hRest : AttributesText text attributes) :
      AttributesText (piece ++ text) (first :: attributes)

/-- The tag of an element, up to what closes the tag. -/
inductive TagText : List Char → List Char → List Attribute → Prop where
  | mk {name text gap : List Char} {attributes : List Attribute} (hName : IsName name)
      (hAttributes : AttributesText text attributes)
      (hDistinct : (attributes.map Attribute.name).Nodup) (hGap : IsGap gap) :
      TagText (['<'] ++ (name ++ (text ++ gap))) name attributes

/-- What follows the tag of an element with the given name and content: without
content the tag may close the element. -/
inductive ClosingText (name : List Char) : List Char → List Char → Prop where
  | itself : ClosingText name [] ['/', '>']
  | tag {inner gap : List Char} (hGap : IsGap gap) :
      ClosingText name inner (['>'] ++ (inner ++ (['<', '/'] ++ (name ++ (gap ++ ['>'])))))

/-! ## Content -/

/-- Content that begins on a line. No run of character data, blank or not, stands
directly behind another one; whether one stands in front is the first argument. -/
inductive ContentText : Bool → Nat → List Char → List Node → Prop where
  | nil {afterRun : Bool} {line : Nat} : ContentText afterRun line [] []
  | blank {line : Nat} {run text : List Char} {nodes : List Node} (hNe : run ≠ [])
      (hBlank : IsBlank run) (hRest : ContentText true (lineAfter line run) text nodes) :
      ContentText false line (run ++ text) nodes
  | run {line : Nat} {written value text : List Char} {nodes : List Node}
      (hValue : Spells LegalInText written value) (hMark : ¬ IsBlank written)
      (hRest : ContentText true (lineAfter line written) text nodes) :
      ContentText false line (written ++ text) (.text line (String.ofList value) :: nodes)
  | cdata {afterRun : Bool} {line : Nat} {piece body text : List Char} {nodes : List Node}
      (hPiece : SectionText piece body)
      (hRest : ContentText false (lineAfter line piece) text nodes) :
      ContentText afterRun line (piece ++ text) (.text line (String.ofList body) :: nodes)
  | comment {afterRun : Bool} {line : Nat} {piece body text : List Char} {nodes : List Node}
      (hPiece : CommentText piece body)
      (hRest : ContentText false (lineAfter line piece) text nodes) :
      ContentText afterRun line (piece ++ text) (.comment line (String.ofList body) :: nodes)
  | instruction {afterRun : Bool} {line : Nat} {piece target data text : List Char}
      {nodes : List Node} (hPiece : InstructionText piece target data)
      (hRest : ContentText false (lineAfter line piece) text nodes) :
      ContentText afterRun line (piece ++ text)
        (.instruction line (String.ofList target) (String.ofList data) :: nodes)
  | element {afterRun : Bool} {line : Nat} {tag name inner behind text : List Char}
      {attributes : List Attribute} {content nodes : List Node}
      (hTag : TagText tag name attributes)
      (hContent : ContentText false (lineAfter line tag) inner content)
      (hClosing : ClosingText name inner behind)
      (hRest : ContentText false (lineAfter line (tag ++ behind)) text nodes) :
      ContentText afterRun line ((tag ++ behind) ++ text)
        (.element ⟨String.ofList name, attributes, line⟩ content :: nodes)

/-- An element that begins on a line. -/
inductive ElementText (line : Nat) : List Char → Tag → List Node → Prop where
  | mk {tag name inner behind : List Char} {attributes : List Attribute} {content : List Node}
      (hTag : TagText tag name attributes)
      (hContent : ContentText false (lineAfter line tag) inner content)
      (hClosing : ClosingText name inner behind) :
      ElementText line (tag ++ behind) ⟨String.ofList name, attributes, line⟩ content

/-! ## Documents -/

/-- White space, comments and instructions outside the root element; only the
instructions belong to the document. -/
inductive AsidesText : List Char → List Instruction → Prop where
  | gap {gap : List Char} (hGap : IsGap gap) : AsidesText gap []
  | comment {gap piece body text : List Char} {instructions : List Instruction} (hGap : IsGap gap)
      (hPiece : CommentText piece body) (hRest : AsidesText text instructions) :
      AsidesText (gap ++ (piece ++ text)) instructions
  | instruction {gap piece target data text : List Char} {instructions : List Instruction}
      (hGap : IsGap gap) (hPiece : InstructionText piece target data)
      (hRest : AsidesText text instructions) :
      AsidesText (gap ++ (piece ++ text))
        (⟨String.ofList target, String.ofList data⟩ :: instructions)

/-- What a declaration begins with; an instruction with the target of declarations
may begin so as well. -/
def BeginsDeclaration (text : List Char) : Prop :=
  ∃ c, Grammar.isSpace c = true ∧ ['<', '?', 'x', 'm', 'l', c] <+: text

/-- A declaration. -/
inductive DeclarationText : List Char → Prop where
  | mk {c : Char} {piece body : List Char} (hSpace : Grammar.isSpace c = true)
      (hPiece : Enclosed ['<', '?', 'x', 'm', 'l', c] ['?', '>'] piece body) :
      DeclarationText piece

/-- A text with a document that it is a way to write. There may be a byte-order
mark in front of all and then a declaration, and without a declaration nothing
there may begin like one. -/
inductive DocumentText : List Char → Document → Prop where
  | mk {mark declaration front root back : List Char} {before behind : List Instruction}
      {tag : Tag} {content : List Node} (hMark : mark = [] ∨ mark = ['\ufeff'])
      (hDeclaration : DeclarationText declaration ∨
        declaration = [] ∧ ¬ BeginsDeclaration (front ++ (root ++ back)))
      (hFront : AsidesText front before)
      (hRoot : ElementText (lineAfter 1 (declaration ++ front)) root tag content)
      (hBack : AsidesText back behind) :
      DocumentText (mark ++ (declaration ++ (front ++ (root ++ back))))
        ⟨before ++ behind, tag, content⟩

/-- A text with everything that may stand around a root element, and none. -/
inductive RootlessText : List Char → Prop where
  | mk {mark declaration text : List Char} {instructions : List Instruction}
      (hMark : mark = [] ∨ mark = ['\ufeff'])
      (hDeclaration : DeclarationText declaration ∨ declaration = [])
      (hText : AsidesText text instructions) : RootlessText (mark ++ (declaration ++ text))

end LiveMarkup.Markup
