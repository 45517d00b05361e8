import LiveMarkup.Proofs.Markup.Content
import LiveMarkup.Proofs.Markup.TakenPiece

/-!
# What is taken for content

Elements and their content are taken in turns, so what is taken for them is
followed by an induction on the number of pieces that may be taken. At each number
the content is a layout of the nodes that the check makes of it, and a run of
character data takes all of the data that there is, so that no other run stands
directly behind it.

## Main results

* `contentAt_of_piece` — one piece in front of a layout of content gives another.
* `past_element` — **an element is laid out as what the check makes of it**, closed
  by its own name.
-/

namespace LiveMarkup.Markup

open Reader

theorem Cursor.Past.line {cursor after : Cursor} {text : List Char} (h : cursor.Past text after) :
    after.position.line = lineAfter cursor.position.line text := by
  rw [h.position, line_advance_eq rfl]

/-! ## Checks -/

/-- The checks of an element pass only if all three of them do. -/
theorem WrittenTag.reads_of_checks {γ : Type} {written : WrittenTag} {pieces : List WrittenNode}
    {f : List Attribute → List Node → γ} {result : γ}
    (h : (do
      let attributes ← readAttributes written.name [] written.attributes
      let nodes ← WrittenNode.readAll pieces
      written.checkClose
      return f attributes nodes : Except ReadError γ) = .ok result) :
    ∃ attributes nodes, written.Reads pieces ⟨written.name, attributes, written.start.line⟩ nodes ∧
      f attributes nodes = result := by
  obtain ⟨attributes, hAttributes, h⟩ := exists_of_bind_ok h
  obtain ⟨nodes, hNodes, h⟩ := exists_of_bind_ok h
  obtain ⟨_, hClose, h⟩ := exists_of_bind_ok h
  exact ⟨attributes, nodes, ⟨rfl, rfl, hAttributes, hNodes, hClose⟩, Except.ok.inj h⟩

theorem reads_of_read_element {written : WrittenTag} {pieces : List WrittenNode}
    {node : Option Node} (h : (WrittenNode.element written pieces).read = .ok node) :
    ∃ tag content, written.Reads pieces tag content ∧ some (.element tag content) = node := by
  rw [WrittenNode.read] at h
  obtain ⟨attributes, content, hReads, hNode⟩ := WrittenTag.reads_of_checks h
  exact ⟨_, content, hReads, hNode⟩

/-- A run of character data is dropped if it is blank, and has to spell a text otherwise. -/
theorem spells_of_read_text {p : Text.Position} {raw : List Char} {node : Option Node}
    (hSign : Unsigned raw) (hClass : ∀ c ∈ raw, c ≠ '<')
    (h : (WrittenNode.text p raw).read = .ok node) :
    IsBlank raw ∧ none = node ∨
      ∃ value, ¬ IsBlank raw ∧ Spells LegalInText raw value ∧
        some (.text p.line (String.ofList value)) = node := by
  rw [WrittenNode.read] at h
  split at h
  · rename_i hAll
    exact .inl ⟨List.all_eq_true.mp hAll, Except.ok.inj h⟩
  · rename_i hNotAll
    obtain ⟨text, hText, h⟩ := exists_of_bind_ok h
    obtain ⟨value, hSpells, rfl⟩ := @spells_of_readText LegalInText _ _ _ hSign
      (fun c hMem hAmp => ⟨hClass c hMem, hAmp⟩) hText
    exact .inr ⟨value, fun hBlank => hNotAll (List.all_eq_true.mpr hBlank), hSpells, Except.ok.inj h⟩

theorem readAll_cons {piece : WrittenNode} {pieces : List WrittenNode} {nodes : List Node}
    (h : WrittenNode.readAll (piece :: pieces) = .ok nodes) :
    ∃ node rest, piece.read = .ok node ∧ WrittenNode.readAll pieces = .ok rest ∧
      node.toList ++ rest = nodes := by
  rw [WrittenNode.readAll] at h
  obtain ⟨node, hNode, h⟩ := exists_of_bind_ok h
  obtain ⟨rest, hRest, h⟩ := exists_of_bind_ok h
  refine ⟨node, rest, hNode, hRest, ?_⟩
  cases node <;> exact Except.ok.inj h

/-! ## Content from a cursor on -/

/-- The text is a layout of content at the cursor, also behind a run of character
data if the run ends there. -/
def ContentAt (cursor : Cursor) (text : List Char) (nodes : List Node) : Prop :=
  ∀ afterRun, (afterRun = true → EndsHere (· != '<') cursor.rest) →
    ContentText afterRun cursor.position.line text nodes

theorem contentAt_nil (cursor : Cursor) : ContentAt cursor [] [] :=
  fun _ _ => .nil

/-- Behind a piece that is no run of character data. -/
theorem ContentAt.behind_markup {cursor after : Cursor} {piece back : List Char}
    {nodes : List Node} (h : ContentAt after back nodes) (hPiece : cursor.Past piece after) :
    ContentText false (lineAfter cursor.position.line piece) back nodes := by
  have hBack := h false (fun hFalse => absurd hFalse Bool.false_ne_true)
  rwa [hPiece.line] at hBack

/-- Behind a run of character data. -/
theorem ContentAt.behind_run {cursor after : Cursor} {run back : List Char} {nodes : List Node}
    (h : ContentAt after back nodes) (hRun : cursor.Past run after)
    (hEnds : EndsHere (· != '<') after.rest) :
    ContentText true (lineAfter cursor.position.line run) back nodes := by
  have hBack := h true (fun _ => hEnds)
  rwa [hRun.line] at hBack

/-- Where a run of character data begins none has ended. -/
theorem afterRun_eq_false {cursor after : Cursor} {run : List Char} {afterRun : Bool}
    (hRun : cursor.Past run after) (hNe : run ≠ []) (hClass : ∀ c ∈ run, c ≠ '<')
    (h : afterRun = true → EndsHere (· != '<') cursor.rest) : afterRun = false := by
  rw [Bool.eq_false_iff]
  intro hAfter
  obtain ⟨c, run, rfl⟩ := List.exists_cons_of_ne_nil hNe
  have hEnd : (c != '<') = false := h hAfter c (by rw [hRun.rest]; rfl)
  rw [bne_eq_false_iff_eq] at hEnd
  exact hClass c List.mem_cons_self hEnd

theorem contentAt_of_run {cursor after : Cursor} {raw back : List Char} {node : Option Node}
    {nodes : List Node} (hRun : cursor.Past raw after) (hNe : raw ≠ [])
    (hClass : ∀ c ∈ raw, c ≠ '<') (hEnds : EndsHere (· != '<') after.rest)
    (hSign : Unsigned raw) (hRead : (WrittenNode.text cursor.position raw).read = .ok node)
    (hBack : ContentAt after back nodes) :
    ContentAt cursor (raw ++ back) (node.toList ++ nodes) := by
  intro afterRun hAfter
  obtain rfl := afterRun_eq_false hRun hNe hClass hAfter
  rcases spells_of_read_text hSign hClass hRead with ⟨hBlank, rfl⟩ | ⟨value, hMark, hSpells, rfl⟩
  · exact .blank hNe hBlank (hBack.behind_run hRun hEnds)
  · exact .run hSpells hMark (hBack.behind_run hRun hEnds)

/-! ## One step -/

/-- What is taken for an element of at most so many pieces is a layout of the
element that it is read as. -/
def PastElement (depth : Nat) : Prop :=
  ∀ {cursor written pieces after},
    CanTake (Grammar.elementWithin depth) cursor (written, pieces) after →
    ∃ text, cursor.Past text after ∧ ∀ tag content, Unsigned text →
      written.Reads pieces tag content → ElementText cursor.position.line text tag content

/-- What is taken for content of at most so many pieces is a layout of the nodes
that it is read as. -/
def PastContent (depth : Nat) : Prop :=
  ∀ {cursor pieces after}, CanTake (Grammar.contentWithin depth) cursor pieces after →
    ∃ text, cursor.Past text after ∧ ∀ nodes, Unsigned text →
      WrittenNode.readAll pieces = .ok nodes → ContentAt cursor text nodes

/-- **One piece in front of a layout of content gives another.** -/
theorem contentAt_of_piece {depth : Nat} (hElement : PastElement depth) {cursor after : Cursor}
    {piece : WrittenNode} (h : CanTake (pieceWithin depth) cursor piece after) :
    ∃ text, cursor.Past text after ∧ ∀ {node back nodes}, Unsigned text →
      piece.read = .ok node → ContentAt after back nodes →
      ContentAt cursor (text ++ back) (node.toList ++ nodes) := by
  rcases h.of_orElse with hTag | ⟨_, h⟩
  · obtain ⟨⟨written, pieces⟩, hTaken, rfl⟩ := hTag.of_return
    obtain ⟨text, hText, hLayout⟩ := hElement hTaken
    refine ⟨text, hText, ?_⟩
    intro node back nodes hSign hRead hBack afterRun _
    obtain ⟨tag, content, hReads, rfl⟩ := reads_of_read_element hRead
    have hBehind := hBack.behind_markup hText
    cases hLayout tag content hSign hReads with
    | mk hTag hContent hClosing => exact .element hTag hContent hClosing hBehind
  rcases h.of_orElse with hComment | ⟨_, h⟩
  · obtain ⟨text, body, hText, hPiece, rfl⟩ := past_comment hComment
    refine ⟨text, hText, ?_⟩
    intro node back nodes _ hRead hBack afterRun _
    rw [WrittenNode.read] at hRead
    cases hRead
    exact .comment hPiece (hBack.behind_markup hText)
  rcases h.of_orElse with hInstruction | ⟨_, h⟩
  · obtain ⟨text, target, data, raw, hText, hPiece, hData, rfl⟩ := past_instruction hInstruction
    refine ⟨text, hText, ?_⟩
    intro node back nodes _ hRead hBack afterRun _
    rw [WrittenNode.read, hData] at hRead
    cases hRead
    exact .instruction hPiece (hBack.behind_markup hText)
  rcases h.of_orElse with hSection | ⟨_, hText⟩
  · obtain ⟨text, body, hText, hPiece, rfl⟩ := past_cdata hSection
    refine ⟨text, hText, ?_⟩
    intro node back nodes _ hRead hBack afterRun _
    rw [WrittenNode.read] at hRead
    cases hRead
    exact .cdata hPiece (hBack.behind_markup hText)
  · obtain ⟨raw, hRun, hNe, hClass, hEnds, rfl⟩ := past_text hText
    exact ⟨raw, hRun, contentAt_of_run hRun hNe hClass hEnds⟩

theorem pastContent_succ {depth : Nat} (hElement : PastElement depth)
    (hContent : PastContent depth) : PastContent (depth + 1) := by
  intro cursor pieces after h
  rw [contentWithin_succ] at h
  rcases h.of_orElse with hMore | ⟨_, hNone⟩
  · obtain ⟨piece, mid, hPiece, hMore⟩ := hMore.of_bind
    obtain ⟨rest, hRest, rfl⟩ := hMore.of_return
    obtain ⟨front, hFront, hFirst⟩ := contentAt_of_piece hElement hPiece
    obtain ⟨back, hBack, hOthers⟩ := hContent hRest
    refine ⟨front ++ back, hFront.trans hBack, ?_⟩
    intro nodes hSign hRead
    obtain ⟨node, others, hNode, hOther, rfl⟩ := readAll_cons hRead
    exact hFirst (hSign.of_infix (List.prefix_append front back).isInfix) hNode
      (hOthers others (hSign.of_infix (List.suffix_append front back).isInfix) hOther)
  · obtain ⟨rfl, rfl⟩ := hNone.of_pure
    refine ⟨[], .refl cursor, ?_⟩
    intro nodes _ hRead
    rw [WrittenNode.readAll] at hRead
    cases hRead
    exact contentAt_nil cursor

/-! ## Elements -/

theorem past_closeTag {cursor after : Cursor} {close : WrittenClose}
    (h : CanTake Grammar.closeTag cursor close after) :
    ∃ name gap, IsGap gap ∧ cursor.Past (['<', '/'] ++ (name ++ (gap ++ ['>']))) after ∧
      close.name = String.ofList name := by
  obtain ⟨_, opened, hOpening, h⟩ := h.of_named.of_position_bind.of_bind
  obtain ⟨name, named, hName, h⟩ := h.of_bind
  obtain ⟨gap, spaced, hGap, h⟩ := h.of_bind
  obtain ⟨_, hClosing, rfl⟩ := h.of_return
  obtain ⟨chars, hPastName, _, rfl⟩ := past_name hName
  obtain ⟨hGap, hIsGap⟩ := past_optionalSpace hGap
  exact ⟨chars, gap, hIsGap, hOpening.of_literal.trans (hPastName.trans
    (hGap.trans hClosing.of_literal)), rfl⟩

/-- What follows a tag closes it or holds content up to a closing tag, whose name
is checked. -/
theorem past_closing {depth : Nat} (hContent : PastContent depth) {start : Text.Position}
    {name : List Char} {attributes : List WrittenAttribute} {cursor after : Cursor}
    {written : WrittenTag} {pieces : List WrittenNode}
    (h : CanTake (closingWithin depth start (String.ofList name) attributes) cursor
      (written, pieces) after) :
    ∃ behind close, cursor.Past behind after ∧
      written = ⟨start, String.ofList name, attributes, close⟩ ∧
      ∀ nodes, Unsigned behind → WrittenNode.readAll pieces = .ok nodes →
        written.checkClose = .ok () → ∃ inner, ClosingText name inner behind ∧
          ContentText false cursor.position.line inner nodes := by
  rcases h.of_orElse with hItself | ⟨_, hTag⟩
  · obtain ⟨_, hClosing, hEq⟩ := hItself.of_return
    cases hEq
    refine ⟨_, none, hClosing.of_literal, rfl, ?_⟩
    intro nodes _ hRead _
    rw [WrittenNode.readAll] at hRead
    cases hRead
    exact ⟨[], .itself, .nil⟩
  · obtain ⟨_, inside, hOpening, h⟩ := hTag.of_bind
    obtain ⟨content, mid, hInner, h⟩ := h.of_bind
    obtain ⟨close, hClose, hEq⟩ := h.of_return
    cases hEq
    obtain ⟨inner, hInner, hLayout⟩ := hContent hInner
    obtain ⟨other, gap, hGap, hClose, hName⟩ := past_closeTag hClose
    have hOpening := hOpening.of_literal
    refine ⟨_, some close, hOpening.trans (hInner.trans hClose), rfl, ?_⟩
    intro nodes hSign hRead hCheck
    rw [WrittenTag.checkClose] at hCheck
    simp only at hCheck
    split at hCheck
    · rename_i hSame
      rw [hName, String.ofList_inj] at hSame
      subst hSame
      have hInside : Unsigned inner := hSign.of_infix ⟨['>'], _, List.append_assoc _ _ _⟩
      have hNodes := hLayout nodes hInside hRead false
        (fun hFalse => absurd hFalse Bool.false_ne_true)
      rw [hOpening.line] at hNodes
      exact ⟨inner, .tag hGap, hNodes⟩
    · cases hCheck

theorem elementWithin_succ (depth : Nat) :
    Grammar.elementWithin (depth + 1) =
      named .element (do
        let start ← position
        literal ['<']
        let name ← Grammar.name
        let attributes ← many Grammar.attrib
        let _ ← Grammar.optionalSpace
        closingWithin depth start name attributes) := by
  rw [Grammar.elementWithin]
  rfl

theorem pastElement_succ {depth : Nat} (hContent : PastContent depth) :
    PastElement (depth + 1) := by
  intro cursor written pieces after h
  rw [elementWithin_succ] at h
  obtain ⟨_, opened, hOpening, h⟩ := h.of_named.of_position_bind.of_bind
  obtain ⟨name, named, hName, h⟩ := h.of_bind
  obtain ⟨attributes, behindAttributes, hAttributes, h⟩ := h.of_bind
  obtain ⟨gap, inside, hGap, hClosing⟩ := h.of_bind
  obtain ⟨chars, hPastName, hIsName, rfl⟩ := past_name hName
  obtain ⟨text, hText, hLayout⟩ := past_attributes hAttributes
  obtain ⟨hGap, hIsGap⟩ := past_optionalSpace hGap
  obtain ⟨behind, close, hBehind, rfl, hInside⟩ := past_closing hContent hClosing
  have hTag : cursor.Past (['<'] ++ (chars ++ (text ++ gap))) inside :=
    hOpening.of_literal.trans (hPastName.trans (hText.trans hGap))
  refine ⟨_, hTag.trans hBehind, ?_⟩
  rintro ⟨name, attributes, line⟩ content hSign ⟨rfl, rfl, hRead, hReadAll, hClose⟩
  have hTextSign : Unsigned text := hSign.of_infix
    ⟨['<'] ++ chars, gap ++ behind, by simp only [List.append_assoc]⟩
  have hBehindSign : Unsigned behind := hSign.of_infix (List.suffix_append _ behind).isInfix
  obtain ⟨_, rfl, hAttributesText, hDistinct⟩ :=
    hLayout _ [] _ hTextSign List.nodup_nil hRead
  obtain ⟨inner, hClosingText, hContentText⟩ := hInside content hBehindSign hReadAll hClose
  rw [hTag.line] at hContentText
  exact .mk (.mk hIsName hAttributesText hDistinct hIsGap) hContentText hClosingText

/-! ## All of it -/

theorem pastElement_and_pastContent (depth : Nat) : PastElement depth ∧ PastContent depth := by
  induction depth with
  | zero =>
      constructor
      · intro cursor written pieces after h
        rw [Grammar.elementWithin] at h
        exact absurd (refused_fail cursor) h.not_refused
      · intro cursor pieces after h
        rw [Grammar.contentWithin] at h
        obtain ⟨rfl, rfl⟩ := h.of_pure
        refine ⟨[], .refl cursor, ?_⟩
        intro nodes _ hRead
        rw [WrittenNode.readAll] at hRead
        cases hRead
        exact contentAt_nil cursor
  | succ depth ih => exact ⟨pastElement_succ ih.2, pastContent_succ ih.1 ih.2⟩

/-- **An element is laid out as what the check makes of it.** -/
theorem past_element {cursor after : Cursor} {written : WrittenTag} {pieces : List WrittenNode}
    (h : CanTake Grammar.element cursor (written, pieces) after) :
    ∃ text, cursor.Past text after ∧ ∀ tag content, Unsigned text →
      written.Reads pieces tag content → ElementText cursor.position.line text tag content := by
  obtain ⟨trail, hTake⟩ := h
  rw [Grammar.element] at hTake
  exact (pastElement_and_pastContent (cursor.rest.length + 1)).1 ⟨trail, hTake⟩

end LiveMarkup.Markup
