import LiveMarkup.Proofs.Markup.Layout

/-!
# Markup to the character

The tree that the grammar gives has the positions of its pieces and leaves out what only
keeps them apart: white space in tags, brackets, quotes. A verbatim tree is the other way
round. It has every character, so that a text can be had back from it, and no position,
as each follows from the text in front.

A verbatim tree obeys the grammar by construction. Whether it makes a document is
another matter: names may be repeated in it, references may stand for nothing, and tags
may be closed by other names.

## Main definitions

* `VerbatimAttribute`, `VerbatimTag`, `VerbatimClose`, `Verbatim` — pieces of markup.
* `Verbatim.text`, `Verbatim.written` — the text of a piece, and what the grammar makes
  of it at a position.
* `VerbatimDocument` — a root element with all that stands around it.
-/

namespace LiveMarkup.Markup

open Text (Position)

/-! ## Tags -/

/-- An attribute, with the white space in front of it. -/
structure VerbatimAttribute where
  gap : List Char
  name : List Char
  before : List Char
  behind : List Char
  quote : Char
  value : List Char
  gap_ne_nil : gap ≠ []
  isGap : IsGap gap
  isName : IsName name
  isGap_before : IsGap before
  isGap_behind : IsGap behind
  isQuote : quote = '"' ∨ quote = '\''
  isValue : ∀ c ∈ value, c ≠ quote ∧ c ≠ '<'

namespace VerbatimAttribute

/-- Everything in front of the value. -/
def opening (a : VerbatimAttribute) : List Char :=
  a.gap ++ (a.name ++ (a.before ++ (['='] ++ (a.behind ++ [a.quote]))))

def text (a : VerbatimAttribute) : List Char :=
  a.opening ++ (a.value ++ [a.quote])

/-- The attribute as the grammar gives it, at a position. -/
def written (p : Position) (a : VerbatimAttribute) : WrittenAttribute :=
  ⟨p, String.ofList a.name, p.advance a.opening, a.value⟩

/-- The text of attributes in a row. -/
def textAll : List VerbatimAttribute → List Char
  | [] => []
  | a :: rest => a.text ++ textAll rest

/-- Attributes in a row as the grammar gives them, from a position on. -/
def writtenAll (p : Position) : List VerbatimAttribute → List WrittenAttribute
  | [] => []
  | a :: rest => a.written p :: writtenAll (p.advance a.text) rest

end VerbatimAttribute

/-- The tag of an element, up to what closes the tag. -/
structure VerbatimTag where
  name : List Char
  attributes : List VerbatimAttribute
  gap : List Char
  isName : IsName name
  isGap : IsGap gap

namespace VerbatimTag

/-- Everything in front of the attributes. -/
def opening (tag : VerbatimTag) : List Char :=
  ['<'] ++ tag.name

def text (tag : VerbatimTag) : List Char :=
  tag.opening ++ (VerbatimAttribute.textAll tag.attributes ++ tag.gap)

/-- The tag as the grammar gives it, at a position and with the tag that closes the
element. -/
def written (p : Position) (close : Option WrittenClose) (tag : VerbatimTag) : WrittenTag :=
  ⟨p, String.ofList tag.name, VerbatimAttribute.writtenAll (p.advance tag.opening) tag.attributes,
    close⟩

end VerbatimTag

/-- The tag that closes an element. -/
structure VerbatimClose where
  name : List Char
  gap : List Char
  isName : IsName name
  isGap : IsGap gap

namespace VerbatimClose

def text (close : VerbatimClose) : List Char :=
  ['<', '/'] ++ (close.name ++ (close.gap ++ ['>']))

/-- The tag as the grammar gives it, at a position. -/
def written (p : Position) (close : VerbatimClose) : WrittenClose :=
  ⟨p, String.ofList close.name⟩

end VerbatimClose

/-! ## Pieces of content -/

/-- A piece of content. -/
inductive Verbatim where
  /-- An element whose tag closes it. -/
  | single (tag : VerbatimTag)
  | element (tag : VerbatimTag) (content : List Verbatim) (close : VerbatimClose)
  /-- A run of character data. -/
  | run (raw : List Char) (hNe : raw ≠ []) (hRaw : ∀ c ∈ raw, c ≠ '<')
  | cdata (body : List Char) (hBody : ¬ [']', ']', '>'] <:+: body)
  | comment (body : List Char) (hBody : ¬ ['-', '-', '>'] <:+: body)
  /-- An instruction. The data are all that stands behind the target, which has to end. -/
  | instruction (target data : List Char) (hTarget : IsName target)
      (hEnds : ∀ c ∈ data.head?, Grammar.isNameChar c = false) (hData : ¬ ['?', '>'] <:+: data)

namespace Verbatim

mutual

def text : Verbatim → List Char
  | single tag => tag.text ++ ['/', '>']
  | element tag content close => tag.text ++ (['>'] ++ (textAll content ++ close.text))
  | run raw _ _ => raw
  | cdata body _ =>
    ['<', '!', '[', 'C', 'D', 'A', 'T', 'A', '['] ++ (body ++ [']', ']', '>'])
  | comment body _ => ['<', '!', '-', '-'] ++ (body ++ ['-', '-', '>'])
  | instruction target data _ _ _ => ['<', '?'] ++ (target ++ (data ++ ['?', '>']))

/-- The text of pieces in a row. -/
def textAll : List Verbatim → List Char
  | [] => []
  | piece :: rest => piece.text ++ textAll rest

end

/-- Everything in front of the content of an element. -/
def opening (tag : VerbatimTag) : List Char :=
  tag.text ++ ['>']

mutual

/-- The piece as the grammar gives it, at a position. -/
def written (p : Position) : Verbatim → WrittenNode
  | single tag => .element (tag.written p none) []
  | element tag content close =>
    .element (tag.written p (some (close.written (p.advance (opening tag ++ textAll content)))))
      (writtenAll (p.advance (opening tag)) content)
  | run raw _ _ => .text p raw
  | cdata body _ => .cdata p body
  | comment body _ => .comment p body
  | instruction target data _ _ _ => .instruction p (String.ofList target) data

/-- Pieces in a row as the grammar gives them, from a position on. -/
def writtenAll (p : Position) : List Verbatim → List WrittenNode
  | [] => []
  | piece :: rest => piece.written p :: writtenAll (p.advance piece.text) rest

end

theorem text_element (tag : VerbatimTag) (content : List Verbatim) (close : VerbatimClose) :
    (element tag content close).text = opening tag ++ (textAll content ++ close.text) := by
  rw [text, opening, List.append_assoc]

/-- Whether the piece is an element. -/
def isElement : Verbatim → Bool
  | single _ => true
  | element .. => true
  | _ => false

/-- Whether the piece is a run of character data. -/
def isRun : Verbatim → Bool
  | run .. => true
  | _ => false

theorem isRun_eq_false_of_isElement {piece : Verbatim} (h : piece.isElement = true) :
    piece.isRun = false := by
  cases piece with
  | run raw hNe hRaw => cases h
  | _ => rfl

mutual

/-- No run of character data stands directly behind another one in the content of the
piece, which would make one run of the two. -/
def Apart : Verbatim → Prop
  | element _ content _ => ApartAll content
  | _ => True

/-- No run stands directly behind another one in the row or in the content of its pieces. -/
def ApartAll : List Verbatim → Prop
  | [] => True
  | piece :: rest =>
    piece.Apart ∧ (piece.isRun = true → ∀ next ∈ rest.head?, next.isRun = false) ∧ ApartAll rest

end

end Verbatim

/-! ## Documents -/

/-- A root element with all that stands around it: a byte-order mark and a declaration,
if there are any, and white space, comments and instructions. -/
structure VerbatimDocument where
  mark : List Char
  declaration : List Char
  front : List Char
  root : Verbatim
  back : List Char
  isMark : mark = [] ∨ mark = ['\ufeff']
  isDeclaration : DeclarationText declaration ∨ declaration = []
  isFront : ∃ instructions, AsidesText front instructions
  isElement : root.isElement = true
  apart : root.Apart
  isBack : ∃ instructions, AsidesText back instructions

namespace VerbatimDocument

/-- Everything between the mark and the root element. -/
def opening (document : VerbatimDocument) : List Char :=
  document.declaration ++ document.front

/-- Everything behind the mark. -/
def behindMark (document : VerbatimDocument) : List Char :=
  document.opening ++ (document.root.text ++ document.back)

def text (document : VerbatimDocument) : List Char :=
  document.mark ++ document.behindMark

/-- A mark is on no line of its own. -/
theorem lineAfter_mark (document : VerbatimDocument) (line : Nat) (text : List Char) :
    lineAfter line (document.mark ++ text) = lineAfter line text := by
  rw [lineAfter, lineAfter, List.count_append]
  rcases document.isMark with hMark | hMark <;> rw [hMark] <;> simp

end VerbatimDocument

end LiveMarkup.Markup
