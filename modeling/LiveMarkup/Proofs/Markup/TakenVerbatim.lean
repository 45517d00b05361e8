import LiveMarkup.Proofs.Markup.Soundness
import LiveMarkup.Proofs.Markup.Verbatim

/-!
# What is taken, to the character

Whatever the grammar takes has a verbatim tree: its text is what was taken, and at the
place where that stands the tree is what the grammar gives. This holds before anything
is checked, so for texts that make no document as well.

The trees are had by one induction on the number of pieces that may be taken. What is
to be shown of all texts that the grammar takes can be shown of verbatim trees, by
induction on the tree.

## Main results

* `exists_element` — what is taken for an element has a verbatim tree.
* `exists_document` — **so has the source of every document with a root element**.
* `exists_verbatim_of_read` — what is read as a document is read of a verbatim tree.
-/

namespace LiveMarkup.Markup

open Reader
open Text (Position)

/-! ## Tags -/

theorem exists_attributes {cursor after : Cursor} {written : List WrittenAttribute}
    (h : CanTake (many Grammar.attrib) cursor written after) :
    ∃ attributes, cursor.Past (VerbatimAttribute.textAll attributes) after ∧
      VerbatimAttribute.writtenAll cursor.position attributes = written := by
  refine CanTake.many_induction ?nil ?cons h
  case nil => exact fun cursor => ⟨[], .refl cursor, rfl⟩
  case cons =>
      intro _ _ _ _ _ hFirst hRest
      obtain ⟨a, hPast, rfl⟩ := exists_attribute hFirst
      obtain ⟨attributes, hPastAll, rfl⟩ := hRest
      refine ⟨a :: attributes, hPast.trans hPastAll, ?_⟩
      rw [VerbatimAttribute.writtenAll, hPast.position]

theorem exists_closeTag {cursor after : Cursor} {written : WrittenClose}
    (h : CanTake Grammar.closeTag cursor written after) :
    ∃ close : VerbatimClose, cursor.Past close.text after ∧
      close.written cursor.position = written := by
  obtain ⟨_, opened, hOpening, h⟩ := h.of_named.of_position_bind.of_bind
  obtain ⟨name, named, hName, h⟩ := h.of_bind
  obtain ⟨gap, spaced, hGap, h⟩ := h.of_bind
  obtain ⟨_, hClosing, rfl⟩ := h.of_return
  obtain ⟨chars, hPastName, hIsName, rfl⟩ := past_name hName
  obtain ⟨hGap, hIsGap⟩ := past_optionalSpace hGap
  exact ⟨⟨chars, gap, hIsName, hIsGap⟩,
    hOpening.of_literal.trans (hPastName.trans (hGap.trans hClosing.of_literal)), rfl⟩

/-! ## One step -/

/-- What is taken for an element of at most so many pieces has a verbatim tree. -/
def ExistsElement (depth : Nat) : Prop :=
  ∀ {cursor written pieces after},
    CanTake (Grammar.elementWithin depth) cursor (written, pieces) after →
    ∃ piece : Verbatim, piece.isElement = true ∧ piece.Apart ∧ cursor.Past piece.text after ∧
      piece.written cursor.position = .element written pieces

/-- What is taken for content of at most so many pieces is a row of verbatim trees. -/
def ExistsContent (depth : Nat) : Prop :=
  ∀ {cursor written after}, CanTake (Grammar.contentWithin depth) cursor written after →
    ∃ pieces, Verbatim.ApartAll pieces ∧ cursor.Past (Verbatim.textAll pieces) after ∧
      Verbatim.writtenAll cursor.position pieces = written

/-- A run of character data is taken as far as it goes. -/
theorem exists_piece {depth : Nat} (hElement : ExistsElement depth) {cursor after : Cursor}
    {written : WrittenNode} (h : CanTake (pieceWithin depth) cursor written after) :
    ∃ piece : Verbatim, piece.Apart ∧ cursor.Past piece.text after ∧
      piece.written cursor.position = written ∧
      (piece.isRun = true → EndsHere (· != '<') after.rest) := by
  rcases h.of_orElse with hTag | ⟨_, h⟩
  · obtain ⟨⟨tag, content⟩, hTaken, rfl⟩ := hTag.of_return
    obtain ⟨piece, hIs, hApart, hPast, hWritten⟩ := hElement hTaken
    refine ⟨piece, hApart, hPast, hWritten, fun hRun => ?_⟩
    rw [Verbatim.isRun_eq_false_of_isElement hIs] at hRun
    cases hRun
  rcases h.of_orElse with hComment | ⟨_, h⟩
  · obtain ⟨_, body, hPast, ⟨rfl, hBody⟩, rfl⟩ := past_comment hComment
    exact ⟨.comment body hBody, trivial, hPast, rfl, fun hRun => nomatch hRun⟩
  rcases h.of_orElse with hInstruction | ⟨_, h⟩
  · obtain ⟨target, data, hTarget, hEnds, hData, hPast, rfl⟩ := exists_instruction hInstruction
    exact ⟨.instruction target data hTarget hEnds hData, trivial, hPast, rfl,
      fun hRun => nomatch hRun⟩
  rcases h.of_orElse with hSection | ⟨_, hText⟩
  · obtain ⟨_, body, hPast, ⟨rfl, hBody⟩, rfl⟩ := past_cdata hSection
    exact ⟨.cdata body hBody, trivial, hPast, rfl, fun hRun => nomatch hRun⟩
  · obtain ⟨raw, hPast, hNe, hRaw, hEnds, rfl⟩ := past_text hText
    exact ⟨.run raw hNe hRaw, trivial, hPast, rfl, fun _ => hEnds⟩

/-- Where a run of character data ends no other one begins. -/
theorem isRun_eq_false_of_endsHere {cursor after : Cursor} {pieces : List Verbatim}
    (hPast : cursor.Past (Verbatim.textAll pieces) after)
    (hEnds : EndsHere (· != '<') cursor.rest) : ∀ next ∈ pieces.head?, next.isRun = false := by
  intro next hNext
  obtain ⟨rest, rfl⟩ := List.head?_eq_some_iff.mp hNext
  cases next with
  | run raw hNe hRaw =>
      obtain ⟨c, raw, rfl⟩ := List.exists_cons_of_ne_nil hNe
      have hEnd : (c != '<') = false := hEnds c (by rw [hPast.rest]; rfl)
      exact absurd (bne_eq_false_iff_eq.mp hEnd) (hRaw c List.mem_cons_self)
  | _ => rfl

theorem existsContent_succ {depth : Nat} (hElement : ExistsElement depth)
    (hContent : ExistsContent depth) : ExistsContent (depth + 1) := by
  intro cursor written after h
  rw [contentWithin_succ] at h
  rcases h.of_orElse with hMore | ⟨_, hNone⟩
  · obtain ⟨first, mid, hPiece, hMore⟩ := hMore.of_bind
    obtain ⟨others, hRest, rfl⟩ := hMore.of_return
    obtain ⟨piece, hApart, hPast, rfl, hEnds⟩ := exists_piece hElement hPiece
    obtain ⟨pieces, hApartAll, hPastAll, rfl⟩ := hContent hRest
    refine ⟨piece :: pieces, ⟨hApart, fun hRun => ?_, hApartAll⟩, hPast.trans hPastAll, ?_⟩
    · exact isRun_eq_false_of_endsHere hPastAll (hEnds hRun)
    · rw [Verbatim.writtenAll, hPast.position]
  · obtain ⟨rfl, rfl⟩ := hNone.of_pure
    exact ⟨[], trivial, .refl cursor, rfl⟩

theorem existsElement_succ {depth : Nat} (hContent : ExistsContent depth) :
    ExistsElement (depth + 1) := by
  intro cursor written pieces after h
  rw [elementWithin_succ] at h
  obtain ⟨_, opened, hOpening, h⟩ := h.of_named.of_position_bind.of_bind
  obtain ⟨name, named, hName, h⟩ := h.of_bind
  obtain ⟨_, behindAttributes, hAttributes, h⟩ := h.of_bind
  obtain ⟨gap, inside, hGap, hClosing⟩ := h.of_bind
  obtain ⟨chars, hPastName, hIsName, rfl⟩ := past_name hName
  obtain ⟨attributes, hPastAll, rfl⟩ := exists_attributes hAttributes
  obtain ⟨hGap, hIsGap⟩ := past_optionalSpace hGap
  let tag : VerbatimTag := ⟨chars, attributes, gap, hIsName, hIsGap⟩
  have hNamed : cursor.Past tag.opening named := hOpening.of_literal.trans hPastName
  have hTag : cursor.Past tag.text inside := hNamed.trans (hPastAll.trans hGap)
  rw [hNamed.position] at hClosing
  rcases hClosing.of_orElse with hItself | ⟨_, hTwo⟩
  · obtain ⟨_, hBracket, hEq⟩ := hItself.of_return
    cases hEq
    exact ⟨.single tag, rfl, trivial, hTag.trans hBracket.of_literal, rfl⟩
  · obtain ⟨_, within, hBracket, h⟩ := hTwo.of_bind
    obtain ⟨_, mid, hInner, h⟩ := h.of_bind
    obtain ⟨_, hClose, hEq⟩ := h.of_return
    cases hEq
    obtain ⟨content, hApart, hPastContent, rfl⟩ := hContent hInner
    obtain ⟨close, hPastClose, rfl⟩ := exists_closeTag hClose
    have hOpened : cursor.Past (Verbatim.opening tag) within := hTag.trans hBracket.of_literal
    refine ⟨.element tag content close, rfl, hApart, ?_, ?_⟩
    · rw [Verbatim.text_element]
      exact hOpened.trans (hPastContent.trans hPastClose)
    · rw [Verbatim.written, ← hOpened.position, ← (hOpened.trans hPastContent).position]
      rfl

/-! ## All of it -/

theorem existsElement_and_existsContent (depth : Nat) :
    ExistsElement depth ∧ ExistsContent depth := by
  induction depth with
  | zero =>
      constructor
      · intro cursor written pieces after h
        rw [Grammar.elementWithin] at h
        exact absurd (refused_fail cursor) h.not_refused
      · intro cursor written after h
        rw [Grammar.contentWithin] at h
        obtain ⟨rfl, rfl⟩ := h.of_pure
        exact ⟨[], trivial, .refl cursor, rfl⟩
  | succ depth ih => exact ⟨existsElement_succ ih.2, existsContent_succ ih.1 ih.2⟩

/-- **What is taken for an element has a verbatim tree.** -/
theorem exists_element {cursor after : Cursor} {written : WrittenTag} {pieces : List WrittenNode}
    (h : CanTake Grammar.element cursor (written, pieces) after) :
    ∃ piece : Verbatim, piece.isElement = true ∧ piece.Apart ∧ cursor.Past piece.text after ∧
      piece.written cursor.position = .element written pieces := by
  obtain ⟨trail, hTake⟩ := h
  rw [Grammar.element] at hTake
  exact (existsElement_and_existsContent (cursor.rest.length + 1)).1 ⟨trail, hTake⟩

/-! ## Documents -/

/-- **The source of a document with a root element has a verbatim tree.** -/
theorem exists_document {source : String} {written : WrittenDocument}
    (hWritten : readWritten (dropByteOrderMark source.toList) = .ok written) {tag : WrittenTag}
    {content : List WrittenNode} (hRoot : written.root = some (tag, content)) :
    ∃ document : VerbatimDocument, document.text = source.toList ∧
      document.behindMark = dropByteOrderMark source.toList ∧
      document.root.written (Position.start.advance document.opening) = .element tag content := by
  obtain ⟨after, h⟩ := canTake_of_readWritten hWritten
  obtain ⟨mark, hMark, hSource⟩ := exists_mark source.toList
  obtain ⟨_, declared, hDeclaration, h⟩ := h.of_named.of_bind
  obtain ⟨prolog, atRoot, hProlog, h⟩ := h.of_bind
  obtain ⟨found, behindRoot, hElement, h⟩ := h.of_bind
  obtain ⟨epilog, atEnd, hEpilog, h⟩ := h.of_bind
  obtain ⟨_, hEnd, rfl⟩ := h.of_return
  obtain ⟨front, hFront, hBefore⟩ := past_asides hProlog
  obtain ⟨back, hBack, hBehind⟩ := past_asides hEpilog
  obtain ⟨hNothing, rfl⟩ := hEnd.of_named.of_atEnd
  obtain ⟨declaration, hPast, hThere⟩ : ∃ declaration,
      (Cursor.start (dropByteOrderMark source.toList)).Past declaration declared ∧
        (DeclarationText declaration ∨ declaration = []) := by
    rcases hDeclaration.of_optional with ⟨_, hTaken, _⟩ | ⟨_, _, rfl⟩
    · obtain ⟨piece, hPiece, hText⟩ := past_declaration hTaken
      exact ⟨piece, hPiece, .inl hText⟩
    · exact ⟨[], .refl _, .inr rfl⟩
  rcases hElement.of_optional with ⟨⟨tag', content'⟩, hTaken, rfl⟩ | ⟨_, rfl, _⟩
  · cases hRoot
    obtain ⟨root, hIs, hApart, hPastRoot, hWrittenRoot⟩ := exists_element hTaken
    have hOpening := hPast.trans hFront
    have hWhole := (hOpening.trans (hPastRoot.trans hBack)).rest
    rw [hNothing, List.append_nil] at hWhole
    refine ⟨⟨mark, declaration, front, root, back, hMark, hThere, ⟨_, hBefore⟩, hIs, hApart,
      ⟨_, hBehind⟩⟩, ?_, hWhole.symm, ?_⟩
    · exact (congrArg (mark ++ ·) hWhole.symm).trans hSource.symm
    · rw [← hWrittenRoot, hOpening.position]
      rfl
  · cases hRoot

/-- What is read as a document has a verbatim tree, of which its root element is read. -/
theorem exists_verbatim_of_read {source : String} {document : Document}
    (h : Document.read source = .ok document) :
    ∃ verbatim : VerbatimDocument, verbatim.text = source.toList ∧
      verbatim.behindMark = dropByteOrderMark source.toList ∧
      (verbatim.root.written (Position.start.advance verbatim.opening)).read =
        .ok (some document.rootNode) := by
  rw [Document.read] at h
  obtain ⟨written, hWritten, hRead⟩ := exists_of_bind_ok h
  rw [WrittenDocument.read] at hRead
  cases hRoot : written.root with
  | none =>
      rw [hRoot] at hRead
      cases hRead
  | some root =>
      rw [hRoot] at hRead
      obtain ⟨attributes, nodes, hReads, rfl⟩ := WrittenTag.reads_of_checks hRead
      obtain ⟨verbatim, hText, hBehind, hElement⟩ := exists_document hWritten hRoot
      refine ⟨verbatim, hText, hBehind, ?_⟩
      rw [hElement]
      exact hReads.read_element

end LiveMarkup.Markup
