import LiveMarkup.Proofs.Markup.Decoding
import LiveMarkup.Proofs.Markup.Piece
import LiveMarkup.Proofs.Markup.Taken
import LiveMarkup.Proofs.Markup.Verbatim

/-!
# What is taken for a piece of markup

Whatever the reader of a piece takes is laid out as that piece. The pieces that
are checked after they are taken, attributes among them, are laid out as what the
check makes of them, if their references have no signs.

## Main results

* `past_comment`, `past_cdata`, `past_instruction`, `past_text` — pieces that are
  not checked.
* `exists_instruction`, `exists_attribute` — what is taken, to the character.
* `past_attributes` — **attributes in a row**, whose names differ from each other.
-/

namespace LiveMarkup.Markup

open Reader

/-! ## Names and white space -/

theorem isBlank_of_isSpace {c : Char} (h : Grammar.isSpace c = true) : Text.isBlank c = true := by
  simp only [Grammar.isSpace, Bool.or_eq_true, beq_iff_eq] at h
  rcases h with ((rfl | rfl) | rfl) | rfl <;> decide

theorem IsGap.isBlank {gap : List Char} (h : IsGap gap) : IsBlank gap :=
  fun c hMem => isBlank_of_isSpace (h c hMem)

theorem past_nameChars {cursor after : Cursor} {name : String}
    (h : CanTake Grammar.nameChars cursor name after) :
    ∃ chars, cursor.Past chars after ∧ IsName chars ∧ EndsHere Grammar.isNameChar after.rest ∧
      String.ofList chars = name := by
  obtain ⟨first, mid, hFirst, h⟩ := h.of_bind
  obtain ⟨others, hOthers, hName⟩ := h.of_return
  obtain ⟨hFirst, hStart⟩ := hFirst.of_satisfy
  obtain ⟨hOthers, hChars, hEnds⟩ := hOthers.of_takeWhile
  exact ⟨_, hFirst.trans hOthers, ⟨first, others, rfl, hStart, hChars⟩, hEnds, hName⟩

theorem past_name {cursor after : Cursor} {name : String}
    (h : CanTake Grammar.name cursor name after) :
    ∃ chars, cursor.Past chars after ∧ IsName chars ∧ String.ofList chars = name := by
  obtain ⟨chars, hPast, hChars, _, hName⟩ := past_nameChars h.of_named
  exact ⟨chars, hPast, hChars, hName⟩

theorem past_optionalSpace {cursor after : Cursor} {gap : List Char}
    (h : CanTake Grammar.optionalSpace cursor gap after) : cursor.Past gap after ∧ IsGap gap := by
  obtain ⟨hPast, hGap, _⟩ := CanTake.of_takeWhile h
  exact ⟨hPast, hGap⟩

/-! ## Enclosed pieces -/

theorem past_body {stop text : List Char} {cursor after : Cursor} (hStop : stop ≠ [])
    (h : CanTake (Grammar.body stop) cursor text after) :
    cursor.Past (text ++ stop) after ∧ ¬ stop <:+: text := by
  obtain ⟨taken, mid, hTaken, h⟩ := h.of_bind
  obtain ⟨_, hLiteral, rfl⟩ := h.of_return
  obtain ⟨hText, hNot⟩ := hTaken.of_takeUpTo hStop
  exact ⟨hText.trans hLiteral.of_literal, hNot⟩

/-- A reader that takes an opening, and what follows up to the first stop. -/
theorem past_enclosed {c : Construct} {opening stop : List Char}
    {f : Text.Position → List Char → WrittenNode} {cursor after : Cursor} {node : WrittenNode}
    (hStop : stop ≠ [])
    (h : CanTake (named c do
      let start ← position
      literal opening
      let text ← Grammar.body stop
      return f start text) cursor node after) :
    ∃ piece body, cursor.Past piece after ∧ Enclosed opening stop piece body ∧
      f cursor.position body = node := by
  obtain ⟨_, mid, hOpening, h⟩ := h.of_named.of_position_bind.of_bind
  obtain ⟨body, hBody, hNode⟩ := h.of_return
  obtain ⟨hBody, hNot⟩ := past_body hStop hBody
  exact ⟨_, body, hOpening.of_literal.trans hBody, ⟨rfl, hNot⟩, hNode⟩

theorem past_comment {cursor after : Cursor} {node : WrittenNode}
    (h : CanTake Grammar.comment cursor node after) :
    ∃ piece body, cursor.Past piece after ∧ CommentText piece body ∧
      .comment cursor.position body = node :=
  past_enclosed (by decide) h

theorem past_cdata {cursor after : Cursor} {node : WrittenNode}
    (h : CanTake Grammar.cdata cursor node after) :
    ∃ piece body, cursor.Past piece after ∧ SectionText piece body ∧
      .cdata cursor.position body = node :=
  past_enclosed (by decide) h

/-! ## Instructions -/

theorem trimEnd_append (text : List Char) :
    ∃ behind, Text.trimEnd text ++ behind = text ∧ IsBlank behind := by
  refine ⟨(text.reverse.takeWhile Text.isBlank).reverse, ?_, ?_⟩
  · rw [Text.trimEnd, Text.dropEndWhile, ← List.reverse_append, List.takeWhile_append_dropWhile,
      List.reverse_reverse]
  · intro c hMem
    exact List.all_eq_true.mp List.all_takeWhile c (List.mem_reverse.mp hMem)

/-- Trimming takes white space away, and leaves none at the ends. -/
theorem exists_trim_append (text : List Char) :
    ∃ before behind, text = before ++ (Text.trim text ++ behind) ∧ IsBlank before ∧
      IsBlank behind ∧ Trimmed (Text.trim text) := by
  obtain ⟨behind, hInner, hBehind⟩ := trimEnd_append (Text.trimStart text)
  refine ⟨text.takeWhile Text.isBlank, behind, ?_, List.all_eq_true.mp List.all_takeWhile, hBehind,
    ?_, fun c hMem => Text.getLast_trimEnd hMem⟩
  · rw [Text.trim, hInner, Text.trimStart, List.takeWhile_append_dropWhile]
  · intro c hMem
    refine @Text.head_trimStart text c ?_
    obtain ⟨tail, hTail⟩ := List.head?_eq_some_iff.mp hMem
    rw [Text.trim] at hTail
    rw [← hInner, hTail]
    rfl

/-- **What is taken for an instruction, to the character.** -/
theorem exists_instruction {cursor after : Cursor} {node : WrittenNode}
    (h : CanTake Grammar.instruction cursor node after) :
    ∃ target data hTarget hEnds hData,
      let piece := Verbatim.instruction target data hTarget hEnds hData
      cursor.Past piece.text after ∧ piece.written cursor.position = node := by
  obtain ⟨_, opened, hOpening, h⟩ := h.of_named.of_position_bind.of_bind
  obtain ⟨name, named, hName, h⟩ := h.of_bind
  obtain ⟨data, hData, rfl⟩ := h.of_return
  obtain ⟨target, hTarget, hIsName, hEnds, rfl⟩ := past_nameChars hName.of_named
  obtain ⟨hData, hStop⟩ := past_body (by decide) hData
  have hHead : ∀ c ∈ data.head?, Grammar.isNameChar c = false := by
    intro c hMem
    refine hEnds c ?_
    obtain ⟨tail, rfl⟩ := List.head?_eq_some_iff.mp hMem
    rw [hData.rest]
    rfl
  refine ⟨target, data, hIsName, hHead, hStop, ?_, ?_⟩
  · rw [Verbatim.text]
    exact hOpening.of_literal.trans (hTarget.trans hData)
  · rw [Verbatim.written]

/-- An instruction is laid out as one with its data trimmed. -/
theorem instructionText_trim {target data : List Char} (hTarget : IsName target)
    (hEnds : ∀ c ∈ data.head?, Grammar.isNameChar c = false) (hStop : ¬ ['?', '>'] <:+: data) :
    InstructionText (['<', '?'] ++ (target ++ (data ++ ['?', '>']))) target (Text.trim data) := by
  obtain ⟨before, behind, hSplit, hBefore, hBehind, hTrimmed⟩ := exists_trim_append data
  have hInside : Text.trim data <:+: data :=
    ⟨before, behind, by rw [List.append_assoc, ← hSplit]⟩
  have hText := InstructionText.mk hTarget hBefore hBehind hTrimmed
    (fun hInfix => hStop (hInfix.trans hInside)) (by rwa [← hSplit])
  rwa [← hSplit] at hText

theorem past_instruction {cursor after : Cursor} {node : WrittenNode}
    (h : CanTake Grammar.instruction cursor node after) :
    ∃ piece target data raw, cursor.Past piece after ∧ InstructionText piece target data ∧
      instructionData raw = String.ofList data ∧
      .instruction cursor.position (String.ofList target) raw = node := by
  obtain ⟨target, data, hTarget, hEnds, hData, hPast, hNode⟩ := exists_instruction h
  rw [Verbatim.text] at hPast
  rw [Verbatim.written] at hNode
  exact ⟨_, target, Text.trim data, data, hPast, instructionText_trim hTarget hEnds hData, rfl,
    hNode⟩

/-! ## Character data -/

theorem past_text {cursor after : Cursor} {node : WrittenNode}
    (h : CanTake Grammar.text cursor node after) :
    ∃ raw, cursor.Past raw after ∧ raw ≠ [] ∧ (∀ c ∈ raw, c ≠ '<') ∧
      EndsHere (· != '<') after.rest ∧ .text cursor.position raw = node := by
  obtain ⟨raw, hRaw, hNode⟩ := h.of_named.of_position_bind.of_return
  obtain ⟨hPast, hNe, hClass, hEnds⟩ := hRaw.of_takeWhile1
  exact ⟨raw, hPast, hNe, fun c hMem => bne_iff_ne.mp (hClass c hMem), hEnds, hNode⟩

/-- What is read without a fault is a spelling of what it is read as. -/
theorem spells_of_readText {legal : Char → Prop} {start : Text.Position} {written : List Char}
    {text : String} (hSign : Unsigned written) (hLegal : ∀ c ∈ written, c ≠ '&' → legal c)
    (h : readText start written = .ok text) :
    ∃ value, Spells legal written value ∧ String.ofList value = text := by
  rw [readText] at h
  split at h
  · rename_i value hDecode
    exact ⟨value, spells_of_decode hSign hLegal hDecode, Except.ok.inj h⟩
  · cases h

/-! ## Attributes -/

theorem past_quotedBy {quote : Char} {start : Text.Position} {written : List Char}
    {cursor after : Cursor} (h : CanTake (Grammar.quotedBy quote) cursor (start, written) after) :
    cursor.Past ([quote] ++ (written ++ [quote])) after ∧
      (∀ c ∈ written, c ≠ quote ∧ c ≠ '<') ∧ start = cursor.position.advance [quote] := by
  obtain ⟨_, opened, hOpening, h⟩ := h.of_bind
  obtain ⟨value, mid, hValue, h⟩ := h.of_position_bind.of_bind
  obtain ⟨_, hClosing, hEq⟩ := h.of_return
  obtain ⟨hValue, hClass, _⟩ := hValue.of_takeWhile
  cases hEq
  have hOpening := hOpening.of_literal
  refine ⟨hOpening.trans (hValue.trans hClosing.of_literal), ?_, hOpening.position⟩
  intro c hMem
  have hThis := hClass c hMem
  rwa [Bool.and_eq_true, bne_iff_ne, bne_iff_ne] at hThis

theorem past_quoted {start : Text.Position} {written : List Char} {cursor after : Cursor}
    (h : CanTake Grammar.quoted cursor (start, written) after) :
    ∃ quote, (quote = '"' ∨ quote = '\'') ∧
      cursor.Past ([quote] ++ (written ++ [quote])) after ∧
      (∀ c ∈ written, c ≠ quote ∧ c ≠ '<') ∧ start = cursor.position.advance [quote] := by
  rcases h.of_orElse with hDouble | ⟨_, hSingle⟩
  · exact ⟨'"', .inl rfl, past_quotedBy hDouble⟩
  · exact ⟨'\'', .inr rfl, past_quotedBy hSingle⟩

/-- **What is taken for an attribute, to the character.** -/
theorem exists_attribute {cursor after : Cursor} {written : WrittenAttribute}
    (h : CanTake Grammar.attrib cursor written after) :
    ∃ a : VerbatimAttribute, cursor.Past a.text after ∧ a.written cursor.position = written := by
  obtain ⟨gap, spaced, hGap, h⟩ := h.of_named.of_position_bind.of_bind
  obtain ⟨name, named, hName, h⟩ := h.of_bind
  obtain ⟨before, behindName, hBefore, h⟩ := h.of_bind
  obtain ⟨_, behindEquals, hEquals, h⟩ := h.of_bind
  obtain ⟨behind, atQuote, hBehind, h⟩ := h.of_bind
  obtain ⟨⟨start, raw⟩, hQuoted, rfl⟩ := h.of_return
  obtain ⟨hGap, hSpace, hIsGap, _⟩ := CanTake.of_takeWhile1 hGap
  obtain ⟨chars, hPastName, hIsName, rfl⟩ := past_name hName
  obtain ⟨hBefore, hIsBefore⟩ := past_optionalSpace hBefore
  obtain ⟨hBehind, hIsBehind⟩ := past_optionalSpace hBehind
  obtain ⟨quote, hQuote, hValue, hClass, rfl⟩ := past_quoted hQuoted
  let a : VerbatimAttribute := ⟨gap, chars, before, behind, quote, raw, hSpace, hIsGap, hIsName,
    hIsBefore, hIsBehind, hQuote, hClass⟩
  have hFront := hGap.trans (hPastName.trans (hBefore.trans (hEquals.of_literal.trans hBehind)))
  have hOpening : gap ++ (chars ++ (before ++ (['='] ++ behind))) ++ [quote] = a.opening := by
    simp only [VerbatimAttribute.opening, List.append_assoc, a]
  refine ⟨a, ?_, ?_⟩
  · rw [VerbatimAttribute.text, ← hOpening, List.append_assoc]
    exact hFront.trans hValue
  · rw [VerbatimAttribute.written, ← hOpening, Text.Position.advance_append, ← hFront.position]

/-- An attribute is laid out as the one with its value read. -/
theorem VerbatimAttribute.attributeText (a : VerbatimAttribute) {start : Text.Position}
    {value : String} (hSign : Unsigned a.text) (hRead : readText start a.value = .ok value) :
    AttributeText a.text ⟨String.ofList a.name, value⟩ := by
  have hInside : a.value <:+: a.text := ⟨a.opening, [a.quote], List.append_assoc _ _ _⟩
  obtain ⟨text, hSpells, rfl⟩ := @spells_of_readText (LegalInValue a.quote) _ _ _
    (hSign.of_infix hInside)
    (fun c hMem hAmp => ⟨(a.isValue c hMem).1, (a.isValue c hMem).2, hAmp⟩) hRead
  have hText := AttributeText.mk a.gap_ne_nil a.isGap a.isName a.isGap_before a.isGap_behind
    a.isQuote hSpells
  simpa only [VerbatimAttribute.text, VerbatimAttribute.opening, List.append_assoc] using hText

theorem past_attrib {cursor after : Cursor} {written : WrittenAttribute}
    (h : CanTake Grammar.attrib cursor written after) :
    ∃ piece, cursor.Past piece after ∧ ∀ value, Unsigned piece →
      readText written.valueStart written.value = .ok value →
      AttributeText piece ⟨written.name, value⟩ := by
  obtain ⟨a, hPast, rfl⟩ := exists_attribute h
  exact ⟨a.text, hPast, fun value => a.attributeText⟩

/-- The check of attributes reads a value, and admits no name twice. -/
theorem readAttributes_cons {element : String} {before result : List Attribute}
    {written : WrittenAttribute} {rest : List WrittenAttribute}
    (h : readAttributes element before (written :: rest) = .ok result) :
    ∃ value, readText written.valueStart written.value = .ok value ∧
      (∀ other ∈ before, other.name ≠ written.name) ∧
      readAttributes element (before ++ [⟨written.name, value⟩]) rest = .ok result := by
  rw [readAttributes] at h
  obtain ⟨value, hValue, h⟩ := exists_of_bind_ok h
  split at h
  · cases h
  · rename_i hNew
    refine ⟨value, hValue, ?_, h⟩
    intro other hMem hSame
    exact hNew (List.any_eq_true.mpr ⟨other, hMem, beq_iff_eq.mpr hSame⟩)

/-- **Attributes in a row**, behind others with different names: the check gives
those that the text is a layout of, and all names are different. -/
theorem past_attributes {cursor after : Cursor} {written : List WrittenAttribute}
    (h : CanTake (many Grammar.attrib) cursor written after) :
    ∃ text, cursor.Past text after ∧ ∀ element before result, Unsigned text →
      (before.map Attribute.name).Nodup → readAttributes element before written = .ok result →
      ∃ attributes, before ++ attributes = result ∧ AttributesText text attributes ∧
        (result.map Attribute.name).Nodup := by
  refine CanTake.many_induction ?nil ?cons h
  case nil =>
      intro cursor
      refine ⟨[], .refl cursor, ?_⟩
      intro element before result _ hDistinct hRead
      rw [readAttributes] at hRead
      cases hRead
      exact ⟨[], List.append_nil before, .nil, hDistinct⟩
  case cons =>
      intro _ _ _ first _ hFirst hRest
      obtain ⟨piece, hPiece, hAttribute⟩ := past_attrib hFirst
      obtain ⟨text, hText, hAttributes⟩ := hRest
      refine ⟨piece ++ text, hPiece.trans hText, ?_⟩
      intro element before result hSign hDistinct hRead
      obtain ⟨value, hValue, hNew, hRead⟩ := readAttributes_cons hRead
      have hMore : ((before ++ [Attribute.mk first.name value]).map Attribute.name).Nodup := by
        rw [List.map_append, List.nodup_append]
        refine ⟨hDistinct, List.pairwise_singleton _ _, ?_⟩
        intro name hMem last hLast
        obtain ⟨other, hOther, rfl⟩ := List.mem_map.mp hMem
        obtain rfl := List.mem_singleton.mp hLast
        exact hNew other hOther
      obtain ⟨attributes, rfl, hLayout, hAll⟩ := hAttributes element _ result
        (hSign.of_infix (List.suffix_append piece text).isInfix) hMore hRead
      refine ⟨_ :: attributes, by rw [List.append_assoc]; rfl, .cons ?_ hLayout, hAll⟩
      exact hAttribute value (hSign.of_infix (List.prefix_append piece text).isInfix) hValue

end LiveMarkup.Markup
