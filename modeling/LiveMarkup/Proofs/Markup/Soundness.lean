import LiveMarkup.Proofs.Markup.Completeness
import LiveMarkup.Proofs.Markup.Signs
import LiveMarkup.Proofs.Markup.TakenContent

/-!
# Nothing else is read

What is read as a document is a layout of it, so every character of the text is
accounted for; a text is told to have no root element exactly when it has
everything but one; and every other text is malformed.

References with signs are the exception. They are read like those without, so the
first and the last hold of texts in which no sign stands where a reference would
have its number.

## Main results

* `past_asides`, `past_document` — what is taken outside the root element, and for
  the whole.
* `took_rootless` — a text without a root element is taken all the same.
* `Document.read_sound` — **what is read is a layout of what it is read as**.
* `Document.read_signed` — what is read in spite of a sign is a layout of nothing.
-/

namespace LiveMarkup.Markup

open Reader

/-! ## Outside the root element -/

theorem past_declaration {cursor after : Cursor} {u : Unit}
    (h : CanTake Grammar.declaration cursor u after) :
    ∃ piece, cursor.Past piece after ∧ DeclarationText piece := by
  obtain ⟨_, opened, hOpening, h⟩ := h.of_bind
  obtain ⟨gap, spaced, hGap, h⟩ := h.of_bind
  obtain ⟨text, hBody, _⟩ := h.of_return
  obtain ⟨hGap, hSpace, hIsGap, _⟩ := CanTake.of_takeWhile1 hGap
  obtain ⟨hBody, hStop⟩ := past_body (by decide) hBody
  refine ⟨_, hOpening.of_literal.trans (hGap.trans hBody), ?_⟩
  obtain ⟨c, gap, rfl⟩ := List.exists_cons_of_ne_nil hSpace
  have hInner : IsBlank gap := fun other hMem =>
    isBlank_of_isSpace (hIsGap other (List.mem_cons_of_mem c hMem))
  have hNot : ¬ ['?', '>'] <:+: gap ++ text := by
    have hAll := not_infix_of_trimmed hInner (by decide : IsBlank []) hStop
    rwa [List.append_nil] at hAll
  refine @DeclarationText.mk c _ (gap ++ text) (hIsGap c List.mem_cons_self) ⟨?_, hNot⟩
  simp only [List.append_assoc, List.cons_append, List.nil_append]

theorem AsidesText.gap_append {gap text : List Char} {instructions : List Instruction}
    (h : AsidesText text instructions) (hGap : IsGap gap) :
    AsidesText (gap ++ text) instructions := by
  have hBoth : ∀ {inner}, IsGap inner → IsGap (gap ++ inner) := by
    intro inner hInner c hMem
    rcases List.mem_append.mp hMem with hFront | hBack
    · exact hGap c hFront
    · exact hInner c hBack
  cases h with
  | gap hInner => exact .gap (hBoth hInner)
  | comment hInner hPiece hRest =>
      rw [← List.append_assoc]
      exact .comment (hBoth hInner) hPiece hRest
  | instruction hInner hPiece hRest =>
      rw [← List.append_assoc]
      exact .instruction (hBoth hInner) hPiece hRest

theorem AsidesText.append {front back : List Char} {before behind : List Instruction}
    (hFront : AsidesText front before) (hBack : AsidesText back behind) :
    AsidesText (front ++ back) (before ++ behind) := by
  induction hFront with
  | gap hGap => exact hBack.gap_append hGap
  | comment hGap hPiece _ ih =>
      rw [List.append_assoc, List.append_assoc]
      exact .comment hGap hPiece ih
  | instruction hGap hPiece _ ih =>
      rw [List.append_assoc, List.append_assoc]
      exact .instruction hGap hPiece ih

theorem past_aside {cursor after : Cursor} {found : Option WrittenNode}
    (h : CanTake Grammar.aside cursor found after) :
    ∃ text, cursor.Past text after ∧ AsidesText text (instructionsOf found.toList) := by
  have hNoGap : IsGap [] := by decide
  rcases h.of_orElse with hComment | ⟨_, h⟩
  · obtain ⟨node, hTaken, rfl⟩ := hComment.of_map
    obtain ⟨piece, body, hPast, hPiece, rfl⟩ := past_comment hTaken
    have hText := AsidesText.comment hNoGap hPiece (.gap hNoGap)
    rw [List.nil_append, List.append_nil] at hText
    exact ⟨piece, hPast, hText⟩
  rcases h.of_orElse with hInstruction | ⟨_, hSpace⟩
  · obtain ⟨node, hTaken, rfl⟩ := hInstruction.of_map
    obtain ⟨piece, target, data, raw, hPast, hPiece, hData, rfl⟩ := past_instruction hTaken
    have hText := AsidesText.instruction hNoGap hPiece (.gap hNoGap)
    rw [List.nil_append, List.append_nil, ← hData] at hText
    exact ⟨piece, hPast, hText⟩
  · obtain ⟨gap, hTaken, rfl⟩ := hSpace.of_map
    obtain ⟨hPast, _, hGap, _⟩ := CanTake.of_takeWhile1 hTaken
    exact ⟨gap, hPast, .gap hGap⟩

/-- **Outside the root element only white space, comments and instructions are
taken**, and the instructions are kept. -/
theorem past_asides {cursor after : Cursor} {pieces : List (Option WrittenNode)}
    (h : CanTake (many Grammar.aside) cursor pieces after) :
    ∃ text, cursor.Past text after ∧ AsidesText text (instructionsOf (pieces.filterMap id)) := by
  refine CanTake.many_induction ?nil ?cons h
  case nil => exact fun cursor => ⟨[], .refl cursor, .gap (by decide)⟩
  case cons =>
      intro _ _ _ found pieces hFirst hRest
      obtain ⟨front, hFront, hBefore⟩ := past_aside hFirst
      obtain ⟨back, hBack, hBehind⟩ := hRest
      refine ⟨front ++ back, hFront.trans hBack, ?_⟩
      have hBoth := hBefore.append hBehind
      rw [instructionsOf, instructionsOf, ← List.filterMap_append] at hBoth
      cases found <;> exact hBoth

/-! ## Declarations -/

/-- Two texts that are the same begin with the same name. -/
theorem eq_of_name_append {name other rest tail : List Char}
    (hName : ∀ c ∈ name, Grammar.isNameChar c = true)
    (hOther : ∀ c ∈ other, Grammar.isNameChar c = true) (hRest : EndsHere Grammar.isNameChar rest)
    (hTail : EndsHere Grammar.isNameChar tail) (h : name ++ rest = other ++ tail) :
    name = other ∧ rest = tail := by
  have hSame : name = other := by
    rw [← takeWhile_append hName hRest, h, takeWhile_append hOther hTail]
  exact ⟨hSame, List.append_cancel_left (hSame ▸ h)⟩

/-- An instruction that begins like a declaration is one. -/
theorem InstructionText.declarationText {piece target data rest : List Char}
    (h : InstructionText piece target data) (hBegins : BeginsDeclaration (piece ++ rest)) :
    DeclarationText piece := by
  obtain ⟨c, hSpace, tail, hTail⟩ := hBegins
  cases h with
  | @mk _ before _ behind hTarget hBefore hBehind hData hStop hEnds =>
      have hNot := not_infix_of_trimmed hBefore hBehind hStop
      generalize before ++ (data ++ behind) = raw at hTail hEnds hNot
      have hSame : target ++ (raw ++ (['?', '>'] ++ rest)) = ['x', 'm', 'l'] ++ (c :: tail) := by
        simpa using hTail.symm
      have hLeft : EndsHere Grammar.isNameChar (raw ++ (['?', '>'] ++ rest)) := by
        cases raw with
        | nil => exact endsHere_cons (by decide) _
        | cons first others => exact endsHere_cons (hEnds first rfl) _
      have hRight : EndsHere Grammar.isNameChar (c :: tail) :=
        endsHere_cons (isNameChar_of_isSpace hSpace) _
      have hName : ∀ other ∈ ['x', 'm', 'l'], Grammar.isNameChar other = true :=
        List.all_eq_true.mp (by decide)
      obtain ⟨rfl, hRaw⟩ := eq_of_name_append hTarget.isNameChar hName hLeft hRight hSame
      cases raw with
      | nil =>
          obtain rfl : '?' = c := (List.cons.inj hRaw).1
          exact absurd hSpace (by decide)
      | cons first inner =>
          obtain rfl : first = c := (List.cons.inj hRaw).1
          exact .mk hSpace ⟨rfl, fun hInfix => hNot (List.infix_cons hInfix)⟩

/-- What stands in front of a root element and begins like a declaration is one
with the rest behind it. -/
theorem AsidesText.exists_declaration {text rest : List Char} {instructions : List Instruction}
    (h : AsidesText text instructions) (hRest : NoAside rest)
    (hBegins : BeginsDeclaration (text ++ rest)) :
    ∃ declaration behind others, text = declaration ++ behind ∧ DeclarationText declaration ∧
      AsidesText behind others := by
  obtain ⟨c, hSpace, hPrefix⟩ := hBegins
  have hNoGap : ∀ {gap back}, IsGap gap → ['<', '?', 'x', 'm', 'l', c] <+: gap ++ back → gap = [] := by
    intro gap back hGap hPrefix
    cases gap with
    | nil => rfl
    | cons first gap =>
        obtain rfl : '<' = first := (List.cons_prefix_cons.mp hPrefix).1
        exact absurd (hGap '<' List.mem_cons_self) (by decide)
  cases h with
  | gap hGap =>
      obtain rfl := hNoGap hGap hPrefix
      exact absurd (List.IsPrefix.trans ⟨['x', 'm', 'l', c], rfl⟩ hPrefix) hRest.2.2
  | comment hGap hPiece _ =>
      rw [List.append_assoc] at hPrefix
      obtain rfl := hNoGap hGap hPrefix
      obtain ⟨tail, rfl⟩ := hPiece.begins
      simp at hPrefix
  | @instruction gap piece target data text others hGap hPiece hText =>
      rw [List.append_assoc] at hPrefix
      obtain rfl := hNoGap hGap hPrefix
      rw [List.nil_append, List.append_assoc] at hPrefix
      exact ⟨piece, text, others, rfl, hPiece.declarationText ⟨c, hSpace, hPrefix⟩, hText⟩

/-! ## Whole texts -/

/-- The byte-order mark in front of a text, if there is one. -/
theorem exists_mark (text : List Char) :
    ∃ mark, (mark = [] ∨ mark = ['\ufeff']) ∧ text = mark ++ dropByteOrderMark text := by
  cases text with
  | nil => exact ⟨[], .inl rfl, rfl⟩
  | cons c rest =>
      by_cases hMark : c = '\ufeff'
      · subst hMark
        exact ⟨['\ufeff'], .inr rfl, rfl⟩
      · refine ⟨[], .inl rfl, ?_⟩
        rw [dropByteOrderMark, if_neg hMark]
        rfl

/-- **What is taken for the whole**: a declaration unless there is none to take, and
a root element, if any, between what stands around it. -/
theorem past_document {text : List Char} {written : WrittenDocument} {after : Cursor}
    (h : CanTake Grammar.document (.start text) written after) :
    ∃ declaration front root back, text = declaration ++ (front ++ (root ++ back)) ∧
      (DeclarationText declaration ∨
        declaration = [] ∧ CanFail Grammar.declaration (.start text)) ∧
      AsidesText front (instructionsOf written.prolog) ∧
      AsidesText back (instructionsOf written.epilog) ∧
      (written.root = none ∧ root = [] ∨ ∃ element pieces, written.root = some (element, pieces) ∧
        ∀ tag content, Unsigned root → element.Reads pieces tag content →
          ElementText (lineAfter 1 (declaration ++ front)) root tag content) := by
  obtain ⟨_, declared, hDeclaration, h⟩ := h.of_named.of_bind
  obtain ⟨prolog, atRoot, hProlog, h⟩ := h.of_bind
  obtain ⟨root, behindRoot, hRoot, h⟩ := h.of_bind
  obtain ⟨epilog, atEnd, hEpilog, h⟩ := h.of_bind
  obtain ⟨_, hEnd, rfl⟩ := h.of_return
  obtain ⟨front, hFront, hBefore⟩ := past_asides hProlog
  obtain ⟨back, hBack, hBehind⟩ := past_asides hEpilog
  obtain ⟨hNothing, rfl⟩ := hEnd.of_named.of_atEnd
  obtain ⟨declaration, hPast, hThere⟩ : ∃ declaration,
      (Cursor.start text).Past declaration declared ∧ (DeclarationText declaration ∨
        declaration = [] ∧ CanFail Grammar.declaration (.start text)) := by
    rcases hDeclaration.of_optional with ⟨_, hTaken, _⟩ | ⟨hFail, _, rfl⟩
    · obtain ⟨piece, hPiece, hText⟩ := past_declaration hTaken
      exact ⟨piece, hPiece, .inl hText⟩
    · exact ⟨[], .refl _, .inr ⟨rfl, hFail⟩⟩
  have hLine : atRoot.position.line = lineAfter 1 (declaration ++ front) :=
    (hPast.trans hFront).line
  obtain ⟨inner, hInner, hElement⟩ : ∃ inner, atRoot.Past inner behindRoot ∧
      (root = none ∧ inner = [] ∨ ∃ element pieces, root = some (element, pieces) ∧
        ∀ tag content, Unsigned inner → element.Reads pieces tag content →
          ElementText atRoot.position.line inner tag content) := by
    rcases hRoot.of_optional with ⟨⟨element, pieces⟩, hTaken, rfl⟩ | ⟨_, rfl, rfl⟩
    · obtain ⟨inner, hInner, hLayout⟩ := past_element hTaken
      exact ⟨inner, hInner, .inr ⟨element, pieces, rfl, hLayout⟩⟩
    · exact ⟨[], .refl _, .inl ⟨rfl, rfl⟩⟩
  rw [hLine] at hElement
  refine ⟨declaration, front, inner, back, ?_, hThere, hBefore, hBehind, hElement⟩
  have hWhole := (hPast.trans (hFront.trans (hInner.trans hBack))).rest
  rw [hNothing, List.append_nil] at hWhole
  exact hWhole

/-- Where no declaration was taken none can be. -/
theorem not_beginsDeclaration {text rest : List Char} {instructions : List Instruction}
    (h : AsidesText text instructions) (hRest : NoAside rest)
    (hFail : CanFail Grammar.declaration (.start (text ++ rest))) :
    ¬ BeginsDeclaration (text ++ rest) := by
  intro hBegins
  obtain ⟨declaration, behind, _, rfl, hDeclaration, _⟩ := h.exists_declaration hRest hBegins
  rw [List.append_assoc] at hFail
  exact hFail.not_took (takes_declaration .start (behind ++ rest) hDeclaration)

/-- A text that passes the checks of a document is a layout of it. -/
theorem documentText_of_read {mark text : List Char} {written : WrittenDocument} {after : Cursor}
    {document : Document} (hMark : mark = [] ∨ mark = ['\ufeff']) (hSign : Unsigned text)
    (hTake : CanTake Grammar.document (.start text) written after)
    (hRead : written.read = .ok document) : DocumentText (mark ++ text) document := by
  obtain ⟨declaration, front, root, back, rfl, hDeclaration, hFront, hBack, hRoot⟩ :=
    past_document hTake
  rw [WrittenDocument.read] at hRead
  rcases hRoot with ⟨hNone, _⟩ | ⟨element, pieces, hSome, hElement⟩
  · rw [hNone] at hRead
    cases hRead
  · rw [hSome] at hRead
    obtain ⟨attributes, nodes, hReads, rfl⟩ := WrittenTag.reads_of_checks hRead
    have hRootSign : Unsigned root :=
      hSign.of_infix ⟨declaration ++ front, back, by simp only [List.append_assoc]⟩
    have hLayout := hElement _ nodes hRootSign hReads
    refine .mk hMark ?_ hFront hLayout hBack
    rcases hDeclaration with hThere | ⟨rfl, hFail⟩
    · exact .inl hThere
    · exact .inr ⟨rfl, not_beginsDeclaration hFront (hLayout.noAside back) hFail⟩

/-! ## Texts without a root element -/

theorem ok_ne_error {ε α : Type} (a : α) (fault : ε) : Except.ok a ≠ .error fault := by
  intro h
  cases h

theorem malformed_ne_noRoot {α : Type} (position : Text.Position) (fault : Fault) :
    (.error (.malformed position fault) : Except ReadError α) ≠ .error .noRootElement := by
  intro h
  cases h

theorem bind_ne_error {ε α β : Type} {fault : ε} {result : Except ε α} {f : α → Except ε β}
    (h : result ≠ .error fault) (hRest : ∀ a, f a ≠ .error fault) : result >>= f ≠ .error fault := by
  cases result with
  | error other => exact fun hEq => h (congrArg Except.error (Except.error.inj hEq))
  | ok a => exact hRest a

theorem readText_ne_noRoot (start : Text.Position) (raw : List Char) :
    readText start raw ≠ .error .noRootElement := by
  rw [readText]
  split
  · exact ok_ne_error _ _
  · exact malformed_ne_noRoot _ _

theorem readAttributes_ne_noRoot (element : String) (before : List Attribute)
    (written : List WrittenAttribute) :
    readAttributes element before written ≠ .error .noRootElement := by
  induction written generalizing before with
  | nil => exact ok_ne_error _ _
  | cons first rest ih =>
      rw [readAttributes]
      refine bind_ne_error (readText_ne_noRoot _ _) fun value => ?_
      split
      · exact malformed_ne_noRoot _ _
      · exact ih _

theorem checkClose_ne_noRoot (tag : WrittenTag) : tag.checkClose ≠ .error .noRootElement := by
  rw [WrittenTag.checkClose]
  split
  · exact ok_ne_error _ _
  · split
    · exact ok_ne_error _ _
    · exact malformed_ne_noRoot _ _

/-- The checks of an element tell its faults only. -/
theorem checks_ne_noRoot {γ : Type} {written : WrittenTag} {pieces : List WrittenNode}
    {f : List Attribute → List Node → γ}
    (h : WrittenNode.readAll pieces ≠ .error .noRootElement) :
    (do
      let attributes ← readAttributes written.name [] written.attributes
      let nodes ← WrittenNode.readAll pieces
      written.checkClose
      return f attributes nodes : Except ReadError γ) ≠ .error .noRootElement :=
  bind_ne_error (readAttributes_ne_noRoot _ _ _) fun _ => bind_ne_error h fun _ =>
    bind_ne_error (checkClose_ne_noRoot written) fun _ => ok_ne_error _ _

mutual

theorem WrittenNode.read_ne_noRoot (piece : WrittenNode) : piece.read ≠ .error .noRootElement := by
  rw [WrittenNode.read.eq_def]
  cases piece with
  | element tag content => exact checks_ne_noRoot (WrittenNode.readAll_ne_noRoot content)
  | text start raw =>
      simp only
      split
      · exact ok_ne_error _ _
      · exact bind_ne_error (readText_ne_noRoot start raw) fun _ => ok_ne_error _ _
  | cdata start body => exact ok_ne_error _ _
  | comment start body => exact ok_ne_error _ _
  | instruction start target data => exact ok_ne_error _ _

theorem WrittenNode.readAll_ne_noRoot (pieces : List WrittenNode) :
    WrittenNode.readAll pieces ≠ .error .noRootElement := by
  rw [WrittenNode.readAll.eq_def]
  cases pieces with
  | nil => exact ok_ne_error _ _
  | cons piece rest =>
      exact bind_ne_error (WrittenNode.read_ne_noRoot piece) fun _ =>
        bind_ne_error (WrittenNode.readAll_ne_noRoot rest) fun _ => ok_ne_error _ _

end

/-- Only a document without a root element is told to have none. -/
theorem WrittenDocument.root_eq_none {written : WrittenDocument}
    (h : written.read = .error .noRootElement) : written.root = none := by
  rw [WrittenDocument.read] at h
  split at h
  · assumption
  · exact absurd h (checks_ne_noRoot (WrittenNode.readAll_ne_noRoot _))

theorem readWritten_ne_noRoot (text : List Char) : readWritten text ≠ .error .noRootElement := by
  rw [readWritten]
  split
  · exact ok_ne_error _ _
  · exact malformed_ne_noRoot _ _

theorem canTake_of_readWritten {text : List Char} {written : WrittenDocument}
    (h : readWritten text = .ok written) :
    ∃ after, CanTake Grammar.document (.start text) written after := by
  rw [readWritten] at h
  split at h
  · rename_i after trail hRun
    cases h
    exact ⟨after, .blank, by rw [hRun]⟩
  · cases h

theorem refused_element_nil (p : Text.Position) : Refused Grammar.element ⟨[], p⟩ := by
  intro trail
  show (Grammar.elementWithin 1 ⟨[], p⟩ trail).1 = none
  rw [elementWithin_succ]
  exact ((took_position _).bind_refused ((refused_literal p (by decide)).bind _)).named _ trail

/-- **A text without a root element is taken all the same.** -/
theorem took_rootless {declaration text : List Char} {instructions : List Instruction}
    (hDeclaration : DeclarationText declaration ∨ declaration = [] ∧ ¬ BeginsDeclaration text)
    (hText : AsidesText text instructions) :
    ∃ written after, Took Grammar.document (.start (declaration ++ text)) written after ∧
      written.root = none := by
  obtain ⟨first, hFirst⟩ := takes_optional_declaration hDeclaration
  obtain ⟨prolog, hProlog, _⟩ :=
    takes_many_aside hText noAside_nil (Text.Position.start.advance declaration)
  rw [Takes, List.append_nil] at hProlog
  have hEpilog : Took (many Grammar.aside)
      ⟨[], (Text.Position.start.advance declaration).advance text⟩ [] _ :=
    Took.many (took_upToMany_nil (refused_aside _ noAside_nil) _)
  refine ⟨⟨prolog.filterMap id, none, [].filterMap id⟩,
    ⟨[], (Text.Position.start.advance declaration).advance text⟩, ?_, rfl⟩
  refine Took.named (Took.bind hFirst (Took.bind hProlog ?_)) _
  refine Took.bind (.optional_none (refused_element_nil _)) ?_
  exact Took.bind hEpilog (Took.bind ((took_atEnd _).named _) (took_pure _ _))

/-- Whatever begins like a declaration may be told to be one. -/
theorem exists_rootless_parts {declaration text : List Char} {instructions : List Instruction}
    (hDeclaration : DeclarationText declaration ∨ declaration = [])
    (hText : AsidesText text instructions) :
    ∃ first rest others, declaration ++ text = first ++ rest ∧
      (DeclarationText first ∨ first = [] ∧ ¬ BeginsDeclaration rest) ∧ AsidesText rest others := by
  rcases hDeclaration with hThere | rfl
  · exact ⟨declaration, text, instructions, rfl, .inl hThere, hText⟩
  · by_cases hBegins : BeginsDeclaration text
    · rw [← List.append_nil text] at hBegins
      obtain ⟨first, rest, others, rfl, hFirst, hRest⟩ := hText.exists_declaration noAside_nil hBegins
      exact ⟨first, rest, others, rfl, .inl hFirst, hRest⟩
    · exact ⟨[], text, instructions, rfl, .inr ⟨rfl, hBegins⟩, hText⟩

theorem endsHere_mark_of_rootless {declaration text : List Char} {instructions : List Instruction}
    (hDeclaration : DeclarationText declaration ∨ declaration = [])
    (hText : AsidesText text instructions) : EndsHere (· == '\ufeff') (declaration ++ text) := by
  rcases hDeclaration with hThere | rfl
  · exact hThere.endsHere_mark text
  · have hEnds := hText.endsHere_mark endsHere_nil
    rwa [List.append_nil] at hEnds

theorem read_of_rootlessText {source : String} (h : RootlessText source.toList) :
    Document.read source = .error .noRootElement := by
  generalize hSource : source.toList = text at h
  cases h with
  | mk hMark hDeclaration hText =>
      have hNoMark := endsHere_mark_of_rootless hDeclaration hText
      rw [Document.read, hSource, dropByteOrderMark_append hMark hNoMark]
      obtain ⟨first, rest, others, hParts, hFirst, hRest⟩ := exists_rootless_parts hDeclaration hText
      obtain ⟨written, after, hTook, hNone⟩ := took_rootless hFirst hRest
      rw [hParts, readWritten_of_took hTook]
      show written.read = _
      rw [WrittenDocument.read, hNone]

theorem rootlessText_of_read {source : String}
    (h : Document.read source = .error .noRootElement) : RootlessText source.toList := by
  rw [Document.read] at h
  obtain ⟨mark, hMark, hSource⟩ := exists_mark source.toList
  rw [hSource]
  cases hWritten : readWritten (dropByteOrderMark source.toList) with
  | error fault =>
      rw [hWritten] at h
      obtain rfl : fault = .noRootElement := Except.error.inj h
      exact absurd hWritten (readWritten_ne_noRoot _)
  | ok written =>
      rw [hWritten] at h
      obtain ⟨after, hTake⟩ := canTake_of_readWritten hWritten
      obtain ⟨declaration, front, root, back, hParts, hDeclaration, hFront, hBack, hRoot⟩ :=
        past_document hTake
      rw [hParts]
      have hNone := WrittenDocument.root_eq_none h
      rcases hRoot with ⟨_, rfl⟩ | ⟨_, _, hSome, _⟩
      · exact .mk hMark (hDeclaration.imp_right And.left) (hFront.append hBack)
      · rw [hNone] at hSome
        cases hSome

/-! ## The whole source -/

theorem documentText_of_document_read {source : String} {document : Document}
    (hSign : Unsigned source.toList) (h : Document.read source = .ok document) :
    DocumentText source.toList document := by
  rw [Document.read] at h
  obtain ⟨written, hWritten, hRead⟩ := exists_of_bind_ok h
  obtain ⟨after, hTake⟩ := canTake_of_readWritten hWritten
  obtain ⟨mark, hMark, hSource⟩ := exists_mark source.toList
  rw [hSource] at hSign ⊢
  exact documentText_of_read hMark (hSign.of_infix (List.suffix_append mark _).isInfix) hTake hRead

/-- A document that holds one run of character data. -/
theorem read_of_readWritten {source name : String} {start close p : Text.Position}
    {written value : List Char}
    (hWritten : readWritten (dropByteOrderMark source.toList) =
      .ok ⟨[], some (⟨start, name, [], some ⟨close, name⟩⟩, [.text p written]), []⟩)
    (hDecode : Reference.decode written = .ok value) (hMark : ¬ IsBlank written) :
    Document.read source =
      .ok ⟨[], ⟨name, [], start.line⟩, [.text p.line (String.ofList value)]⟩ := by
  have hAll : WrittenNode.readAll [.text p written] =
      .ok [.text p.line (String.ofList value)] := by
    rw [WrittenNode.readAll, WrittenNode.readAll, read_text_of_decode hDecode hMark]
    rfl
  have hReads : WrittenTag.Reads ⟨start, name, [], some ⟨close, name⟩⟩ [.text p written]
      ⟨name, [], start.line⟩ [.text p.line (String.ofList value)] :=
    ⟨rfl, rfl, by rw [readAttributes], hAll, if_pos rfl⟩
  rw [Document.read, hWritten]
  exact hReads.read_document [] []

theorem DocumentText.mem_open {text : List Char} {document : Document}
    (h : DocumentText text document) : '<' ∈ text := by
  cases h with
  | mk _ _ _ hRoot _ =>
      obtain ⟨c, tail, rfl, _⟩ := hRoot.begins
      simp

theorem numeral_letter : Numeral 10 ['6', '5'] 'A'.toNat := by
  have hBoth : Numeral 10 (['6'] ++ ['5']) (6 * 10 + 5) :=
    .more (.digit ⟨by decide, .inl rfl⟩) ⟨by decide, .inl rfl⟩
  exact hBoth

/--
**What is read is a layout of what it is read as.** A source without signs in its
references that is read as a document is one of the ways to write that document.
Exactly those sources are told to have no root element that have everything that
may stand around one and nothing else. Whatever is neither is malformed.
-/
theorem Document.read_sound (source : String) :
    (∀ document, Unsigned source.toList → Document.read source = .ok document →
      DocumentText source.toList document) ∧
    (Document.read source = .error .noRootElement ↔ RootlessText source.toList) ∧
    (Unsigned source.toList → (¬ ∃ document, DocumentText source.toList document) →
      ¬ RootlessText source.toList →
      ∃ position fault, Document.read source = .error (.malformed position fault)) := by
  refine ⟨fun document => documentText_of_document_read,
    ⟨rootlessText_of_read, read_of_rootlessText⟩, ?_⟩
  intro hSign hNoDocument hNotRootless
  cases hRead : Document.read source with
  | ok document => exact absurd ⟨document, documentText_of_document_read hSign hRead⟩ hNoDocument
  | error fault =>
      cases fault with
      | malformed position fault => exact ⟨position, fault, rfl⟩
      | noRootElement => exact absurd (rootlessText_of_read hRead) hNotRootless

/-- A document with a reference, a comment without a root element, and neither. -/
theorem Document.read_sound_reference :
    (Unsigned "<a>&#65;</a>".toList ∧
      DocumentText "<a>&#65;</a>".toList ⟨[], ⟨"a", [], 1⟩, [.text 1 "A"]⟩) ∧
    RootlessText "<!--c-->".toList ∧
    ∃ position fault, Document.read "x" = .error (.malformed position fault) := by
  have hSpells : Spells LegalInText ['&', '#', '6', '5', ';'] ['A'] :=
    .reference (.decimal numeral_letter) .nil
  have hRead : Document.read "<a>&#65;</a>" = .ok ⟨[], ⟨"a", [], 1⟩, [.text 1 "A"]⟩ :=
    @read_of_readWritten _ "a" ⟨0, 1, 1⟩ ⟨8, 1, 9⟩ ⟨3, 1, 4⟩ _ _ rfl
      (decode_of_spells (by decide) hSpells) (by decide)
  have hText : "<a>&#65;</a>".toList =
      ['<', 'a', '>', '&', '#', '6', '5', ';', '<', '/', 'a', '>'] := rfl
  have hUnsigned : Unsigned "<a>&#65;</a>".toList := by
    rw [hText]
    decide
  refine ⟨⟨hUnsigned, (Document.read_sound _).1 _ hUnsigned hRead⟩,
    (Document.read_sound "<!--c-->").2.1.mp rfl, ?_⟩
  have hNoDocument : ¬ ∃ document, DocumentText "x".toList document := by
    rintro ⟨document, h⟩
    exact absurd h.mem_open (by decide)
  have hNotRootless : ¬ RootlessText "x".toList := by
    intro hRootless
    have hNothing := (Document.read_sound "x").2.1.mpr hRootless
    cases hNothing
  exact (Document.read_sound "x").2.2 (by decide) hNoDocument hNotRootless

/-- A sign is read past, and what has one is no layout of any document. -/
theorem Document.read_signed :
    Document.read "<a>&#+65;</a>" = .ok ⟨[], ⟨"a", [], 1⟩, [.text 1 "A"]⟩ ∧
      ¬ ∃ document, DocumentText "<a>&#+65;</a>".toList document := by
  have hDecode : Reference.decode ['&', '#', '+', '6', '5', ';'] = .ok ['A'] := by
    rw [decode_ended rfl, resolve?_signed.1 numeral_letter, Reference.decode]
    rfl
  refine ⟨@read_of_readWritten _ "a" ⟨0, 1, 1⟩ ⟨9, 1, 10⟩ ⟨3, 1, 4⟩ _ _ rfl hDecode (by decide), ?_⟩
  have hText : "<a>&#+65;</a>".toList =
      ['<', 'a', '>', '&', '#', '+', '6', '5', ';', '<', '/', 'a', '>'] := rfl
  rw [hText]
  rintro ⟨document, h⟩
  exact absurd (h.unsigned (by decide)) (by decide)

end LiveMarkup.Markup
