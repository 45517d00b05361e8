import LiveMarkup.Proofs.Markup.Layout
import LiveMarkup.Proofs.Markup.Taking

/-!
# Reading the pieces of markup

Each piece of markup without content, in whatever way it is laid out, is taken by
its own reader up to its end, and refused by the readers of the other pieces.
What the piece is followed by matters only where nothing ends it: behind names,
white space and character data.

## Main results

* `takes_attributes` — attributes in a row, however they are spelled.
* `takes_comment`, `takes_cdata`, `takes_instruction`, `takes_text` — the other
  pieces.
* `refused_attrib`, `refused_comment`, `refused_cdata`, `refused_instruction`,
  `refused_text` — where there is none.
-/

namespace LiveMarkup.Markup

open Reader

/-! ## Names and white space -/

theorem isNameChar_of_isSpace {c : Char} (h : Grammar.isSpace c = true) :
    Grammar.isNameChar c = false := by
  simp only [Grammar.isSpace, Bool.or_eq_true, beq_iff_eq] at h
  rcases h with ((rfl | rfl) | rfl) | rfl <;> decide

theorem isNameStart_of_isSpace {c : Char} (h : Grammar.isSpace c = true) :
    Grammar.isNameStart c = false := by
  simp only [Grammar.isSpace, Bool.or_eq_true, beq_iff_eq] at h
  rcases h with ((rfl | rfl) | rfl) | rfl <;> decide

theorem isSpace_of_isNameStart {c : Char} (h : Grammar.isNameStart c = true) :
    Grammar.isSpace c = false := by
  rw [Bool.eq_false_iff]
  intro hSpace
  rw [isNameStart_of_isSpace hSpace] at h
  cases h

theorem isNameChar_of_isNameStart {c : Char} (h : Grammar.isNameStart c = true) :
    Grammar.isNameChar c = true := by
  simp only [Grammar.isNameStart, Bool.or_eq_true] at h
  simp only [Grammar.isNameChar, Char.isAlphanum, Bool.or_eq_true]
  tauto

theorem IsName.isNameChar {name : List Char} (h : IsName name) :
    ∀ c ∈ name, Grammar.isNameChar c = true := by
  obtain ⟨first, others, rfl, hFirst, hOthers⟩ := h
  intro c hMem
  rcases List.mem_cons.mp hMem with rfl | hMem
  · exact isNameChar_of_isNameStart hFirst
  · exact hOthers c hMem

theorem IsGap.endsHere_isNameChar {gap rest : List Char} (hGap : IsGap gap)
    (hRest : EndsHere Grammar.isNameChar rest) : EndsHere Grammar.isNameChar (gap ++ rest) :=
  endsHere_append (fun c hMem => isNameChar_of_isSpace (hGap c hMem)) hRest

theorem IsName.endsHere_isSpace {name : List Char} (hName : IsName name) (rest : List Char) :
    EndsHere Grammar.isSpace (name ++ rest) := by
  obtain ⟨first, others, rfl, hFirst, _⟩ := hName
  exact endsHere_cons (isSpace_of_isNameStart hFirst) _

theorem takes_nameChars {name rest : List Char} (p : Text.Position) (hName : IsName name)
    (hEnds : EndsHere Grammar.isNameChar rest) :
    Takes Grammar.nameChars p name rest (String.ofList name) := by
  obtain ⟨first, others, rfl, hFirst, hOthers⟩ := hName
  show Takes _ p ([first] ++ others) rest _
  exact takes_bind (took_satisfy _ p hFirst)
    (takes_return (took_takeWhile _ hOthers hEnds) _)

theorem takes_name {name rest : List Char} (p : Text.Position) (hName : IsName name)
    (hEnds : EndsHere Grammar.isNameChar rest) :
    Takes Grammar.name p name rest (String.ofList name) :=
  (takes_nameChars p hName hEnds).named _

theorem refused_name {rest : List Char} (p : Text.Position)
    (h : EndsHere Grammar.isNameStart rest) : Refused Grammar.name ⟨rest, p⟩ :=
  ((refused_satisfy p h).bind _).named _

theorem takes_space {gap rest : List Char} (p : Text.Position) (hSpace : gap ≠ [])
    (hGap : IsGap gap) (hEnds : EndsHere Grammar.isSpace rest) :
    Takes Grammar.space p gap rest gap :=
  took_takeWhile1 p hSpace hGap hEnds

theorem takes_optionalSpace {gap rest : List Char} (p : Text.Position) (hGap : IsGap gap)
    (hEnds : EndsHere Grammar.isSpace rest) : Takes Grammar.optionalSpace p gap rest gap :=
  took_takeWhile p hGap hEnds

/-! ## Enclosed pieces -/

theorem takes_body {stop body rest : List Char} (p : Text.Position) (hStop : stop ≠ [])
    (hBorder : Unbordered stop) (hBody : ¬ stop <:+: body) :
    Takes (Grammar.body stop) p (body ++ stop) rest body :=
  takes_bind (took_takeUpTo p hStop hBorder hBody)
    (takes_return (took_literal stop rest _) _)

theorem takes_comment {piece body : List Char} (p : Text.Position) (rest : List Char)
    (h : CommentText piece body) : Takes Grammar.comment p piece rest (.comment p body) := by
  obtain ⟨rfl, hBody⟩ := h
  refine Took.named (takes_position (takes_bind (took_literal _ _ p) ?_)) _
  exact takes_return (takes_body _ (by decide) (by decide) hBody) _

theorem takes_cdata {piece body : List Char} (p : Text.Position) (rest : List Char)
    (h : SectionText piece body) : Takes Grammar.cdata p piece rest (.cdata p body) := by
  obtain ⟨rfl, hBody⟩ := h
  refine Took.named (takes_position (takes_bind (took_literal _ _ p) ?_)) _
  exact takes_return (takes_body _ (by decide) (by decide) hBody) _

theorem refused_comment {rest : List Char} (p : Text.Position)
    (h : ¬ ['<', '!', '-', '-'] <+: rest) : Refused Grammar.comment ⟨rest, p⟩ :=
  ((took_position _).bind_refused ((refused_literal p h).bind _)).named _

theorem refused_cdata {rest : List Char} (p : Text.Position)
    (h : ¬ ['<', '!', '[', 'C', 'D', 'A', 'T', 'A', '['] <+: rest) :
    Refused Grammar.cdata ⟨rest, p⟩ :=
  ((took_position _).bind_refused ((refused_literal p h).bind _)).named _

/-! ## Instructions -/

/-- White space at the ends of a text is trimmed, and nothing else is. -/
theorem trim_append {before data behind : List Char} (hBefore : IsBlank before)
    (hBehind : IsBlank behind) (hData : Trimmed data) :
    Text.trim (before ++ (data ++ behind)) = data := by
  cases data with
  | nil =>
      have hAll : ∀ c ∈ before ++ behind, Text.isBlank c = true := by
        intro c hMem
        rcases List.mem_append.mp hMem with hFront | hBack
        · exact hBefore c hFront
        · exact hBehind c hBack
      have hNothing := dropWhile_append hAll (@endsHere_nil Text.isBlank)
      rw [List.append_nil] at hNothing
      rw [List.nil_append, Text.trim, Text.trimStart, hNothing]
      rfl
  | cons c data =>
      have hFirst : EndsHere Text.isBlank (c :: data ++ behind) :=
        endsHere_cons (hData.1 c rfl) _
      have hLast : EndsHere Text.isBlank (c :: data).reverse := by
        intro last hMem
        rw [List.head?_reverse] at hMem
        exact hData.2 last hMem
      rw [Text.trim, Text.trimStart, dropWhile_append hBefore hFirst, Text.trimEnd,
        Text.dropEndWhile, List.reverse_append,
        dropWhile_append (fun other hMem => hBehind other (List.mem_reverse.mp hMem)) hLast,
        List.reverse_reverse]

/-- White space in front of a text does not begin a stop without white space. -/
theorem infix_of_blank_append {stop before body : List Char} (hBefore : IsBlank before)
    (hStop : ∀ c ∈ stop, Text.isBlank c = false) (hNe : stop ≠ []) (h : stop <:+: before ++ body) :
    stop <:+: body := by
  obtain ⟨first, others, rfl⟩ := List.exists_cons_of_ne_nil hNe
  refine infix_of_append (fun hMem => ?_) h
  have hFirst := hStop first List.mem_cons_self
  rw [hBefore first hMem] at hFirst
  cases hFirst

/-- Neither does white space behind a text end one. -/
theorem infix_of_append_blank {stop body behind : List Char} (hBehind : IsBlank behind)
    (hStop : ∀ c ∈ stop, Text.isBlank c = false) (hNe : stop ≠ []) (h : stop <:+: body ++ behind) :
    stop <:+: body := by
  rw [← List.reverse_infix, List.reverse_append] at h
  rw [← List.reverse_infix]
  refine infix_of_blank_append (fun c hMem => hBehind c (List.mem_reverse.mp hMem))
    (fun c hMem => hStop c (List.mem_reverse.mp hMem)) ?_ h
  exact fun hNil => hNe (List.reverse_eq_nil_iff.mp hNil)

/-- White space around data adds no end of an instruction. -/
theorem not_infix_of_trimmed {before data behind : List Char} (hBefore : IsBlank before)
    (hBehind : IsBlank behind) (hStop : ¬ ['?', '>'] <:+: data) :
    ¬ ['?', '>'] <:+: before ++ (data ++ behind) := by
  have hChars : ∀ c ∈ ['?', '>'], Text.isBlank c = false := by
    simp only [List.mem_cons, List.not_mem_nil, or_false, forall_eq_or_imp, forall_eq]
    decide
  intro hInfix
  have hBack := infix_of_blank_append hBefore hChars (by decide) hInfix
  exact hStop (infix_of_append_blank hBehind hChars (by decide) hBack)

theorem takes_instruction {piece target data : List Char} (p : Text.Position) (rest : List Char)
    (h : InstructionText piece target data) :
    ∃ raw, Takes Grammar.instruction p piece rest
        (.instruction p (String.ofList target) raw) ∧
      instructionData raw = String.ofList data := by
  cases h with
  | @mk _ before _ behind hTarget hBefore hBehind hData hStop hEnds =>
      have hBody := not_infix_of_trimmed hBefore hBehind hStop
      have hTargetEnds : EndsHere Grammar.isNameChar
          ((before ++ (data ++ behind)) ++ ['?', '>'] ++ rest) := by
        rw [List.append_assoc]
        cases hRaw : before ++ (data ++ behind) with
        | nil => exact endsHere_cons (by decide) _
        | cons c raw => exact endsHere_cons (hEnds c (by rw [hRaw]; rfl)) _
      refine ⟨before ++ (data ++ behind), ?_, ?_⟩
      · refine Took.named (takes_position (takes_bind (took_literal _ _ p) ?_)) _
        refine takes_bind (Took.named (takes_nameChars _ hTarget hTargetEnds) _) ?_
        exact takes_return (takes_body _ (by decide) (by decide) hBody) _
      · rw [instructionData, trim_append hBefore hBehind hData]

theorem refused_instruction {rest : List Char} (p : Text.Position) (h : ¬ ['<', '?'] <+: rest) :
    Refused Grammar.instruction ⟨rest, p⟩ :=
  ((took_position _).bind_refused ((refused_literal p h).bind _)).named _

/-! ## Character data -/

theorem readText_of_spells {legal : Char → Prop} (hAmp : ¬ legal '&') {written value : List Char}
    (h : Spells legal written value) (start : Text.Position) :
    readText start written = .ok (String.ofList value) := by
  rw [readText, decode_of_spells hAmp h]

/-- Nothing that is written in a run of character data looks like markup. -/
theorem Spells.ne_of_legalInText {written value : List Char} (h : Spells LegalInText written value)
    {c : Char} (hMem : c ∈ written) : (c != '<') = true := by
  rw [bne_iff_ne]
  rcases h.mem hMem with hLegal | rfl | rfl | rfl | hAlphanum
  · exact hLegal.1
  · decide
  · decide
  · decide
  · rintro rfl
    exact absurd hAlphanum (by decide)

theorem takes_text {run rest : List Char} (p : Text.Position) (hNe : run ≠ [])
    (hRun : ∀ c ∈ run, (c != '<') = true) (hEnds : EndsHere (· != '<') rest) :
    Takes Grammar.text p run rest (.text p run) :=
  Took.named (takes_position (takes_return (took_takeWhile1 p hNe hRun hEnds) _)) _

theorem refused_text {rest : List Char} (p : Text.Position) (h : EndsHere (· != '<') rest) :
    Refused Grammar.text ⟨rest, p⟩ :=
  ((took_position _).bind_refused ((refused_takeWhile1 p h).bind _)).named _

/-! ## Attributes -/

/-- Nothing that is written in a value ends it. -/
theorem Spells.ne_of_legalInValue {quote : Char} (hQuote : quote = '"' ∨ quote = '\'')
    {written value : List Char} (h : Spells (LegalInValue quote) written value) {c : Char}
    (hMem : c ∈ written) : (c != quote && c != '<') = true := by
  rw [Bool.and_eq_true, bne_iff_ne, bne_iff_ne]
  rcases h.mem hMem with hLegal | rfl | rfl | rfl | hAlphanum
  · exact ⟨hLegal.1, hLegal.2.1⟩
  · rcases hQuote with rfl | rfl <;> decide
  · rcases hQuote with rfl | rfl <;> decide
  · rcases hQuote with rfl | rfl <;> decide
  · constructor
    · rintro rfl
      rcases hQuote with rfl | rfl <;> exact absurd hAlphanum (by decide)
    · rintro rfl
      exact absurd hAlphanum (by decide)

theorem takes_quotedBy {quote : Char} (hQuote : quote = '"' ∨ quote = '\'')
    {written value : List Char} (p : Text.Position) (rest : List Char)
    (h : Spells (LegalInValue quote) written value) :
    Takes (Grammar.quotedBy quote) p ([quote] ++ (written ++ [quote])) rest
      (p.advance [quote], written) := by
  refine takes_bind (took_literal _ _ p) (takes_position ?_)
  refine takes_bind (took_takeWhile _ (fun c hMem => h.ne_of_legalInValue hQuote hMem) ?_) ?_
  · exact endsHere_cons (by simp) _
  · exact takes_return (took_literal _ _ _) _

theorem takes_quoted {quote : Char} (hQuote : quote = '"' ∨ quote = '\'')
    {written value : List Char} (p : Text.Position) (rest : List Char)
    (h : Spells (LegalInValue quote) written value) :
    Takes Grammar.quoted p ([quote] ++ (written ++ [quote])) rest (p.advance [quote], written) := by
  have hThis := takes_quotedBy hQuote p rest h
  rcases hQuote with rfl | rfl
  · exact hThis.orElse_left _
  · refine Took.orElse_right ((refused_literal p ?_).bind _) hThis
    simp

theorem takes_attrib {piece : List Char} {first : Attribute} (p : Text.Position)
    (rest : List Char) (h : AttributeText piece first) :
    ∃ written, Takes Grammar.attrib p piece rest written ∧ written.name = first.name ∧
      readText written.valueStart written.value = .ok first.value := by
  cases h with
  | @mk _ _ _ _ _ _ quote hSpace hGap hName hBefore hBehind hQuote hValue =>
      have hAmp : ¬ LegalInValue quote '&' := fun hLegal => hLegal.2.2 rfl
      have hQuoteSpace : Grammar.isSpace quote = false := by
        rcases hQuote with rfl | rfl <;> decide
      -- Where the value begins comes out of reading what stands in front of it.
      refine ⟨⟨p, _, ?start, _⟩, ?takes, rfl, readText_of_spells hAmp hValue _⟩
      case takes =>
        refine Took.named (takes_position (takes_bind (takes_space p hSpace hGap ?_) ?_)) _
        · rw [List.append_assoc]
          exact hName.endsHere_isSpace _
        refine takes_bind (takes_name _ hName ?_) ?_
        · rw [List.append_assoc]
          exact hBefore.endsHere_isNameChar (endsHere_cons (by decide) _)
        refine takes_bind (takes_optionalSpace _ hBefore (endsHere_cons (by decide) _)) ?_
        refine takes_bind (took_literal _ _ _) ?_
        refine takes_bind (takes_optionalSpace _ hBehind (endsHere_cons hQuoteSpace _)) ?_
        exact takes_return (takes_quoted hQuote _ _ hValue) _

/-- White space alone is no attribute. -/
theorem refused_attrib {gap rest : List Char} (p : Text.Position) (hGap : IsGap gap)
    (hSpace : EndsHere Grammar.isSpace rest) (hName : EndsHere Grammar.isNameStart rest) :
    Refused Grammar.attrib ⟨gap ++ rest, p⟩ := by
  refine ((took_position _).bind_refused ?_).named _
  cases gap with
  | nil => exact (refused_takeWhile1 p hSpace).bind _
  | cons c gap =>
      have hTook := takes_space p (List.cons_ne_nil c gap) hGap hSpace
      exact hTook.bind_refused ((refused_name _ hName).bind _)

theorem AttributeText.ne_nil {piece : List Char} {first : Attribute}
    (h : AttributeText piece first) : piece ≠ [] := by
  cases h with
  | mk hSpace => exact fun hNil => hSpace (List.append_eq_nil_iff.mp hNil).1

/-- Attributes begin with white space, so a name in front of them ends there. -/
theorem AttributesText.endsHere_isNameChar {text rest : List Char} {attributes : List Attribute}
    (h : AttributesText text attributes) (hRest : EndsHere Grammar.isNameChar rest) :
    EndsHere Grammar.isNameChar (text ++ rest) := by
  cases h with
  | nil => exact hRest
  | cons hPiece _ =>
      cases hPiece with
      | @mk gap _ _ _ _ _ _ hSpace hGap =>
          obtain ⟨c, gap, rfl⟩ := List.exists_cons_of_ne_nil hSpace
          exact endsHere_cons (isNameChar_of_isSpace (hGap c List.mem_cons_self)) _

/-- **Attributes are taken one after the other**, and pass the check of their
names where these differ from each other and from those before. -/
theorem takes_attributes {text rest : List Char} {attributes : List Attribute}
    (h : AttributesText text attributes) (hEnd : ∀ p, Refused Grammar.attrib ⟨rest, p⟩)
    {limit : Nat} (hLimit : text.length ≤ limit) (p : Text.Position) :
    ∃ written, Takes (upToMany Grammar.attrib limit) p text rest written ∧
      ∀ element before, ((before ++ attributes).map Attribute.name).Nodup →
        readAttributes element before written = .ok (before ++ attributes) := by
  induction h generalizing limit p with
  | nil =>
      refine ⟨[], took_upToMany_nil (hEnd p) limit, ?_⟩
      intro element before _
      rw [readAttributes, List.append_nil]
  | @cons piece text first attributes hPiece _ ih =>
      obtain ⟨written, hTakes, hName, hValue⟩ := takes_attrib p (text ++ rest) hPiece
      have hLength : 0 < piece.length := List.length_pos_iff.mpr hPiece.ne_nil
      rw [List.length_append] at hLimit
      obtain ⟨limit, rfl⟩ : ∃ less, limit = less + 1 := ⟨limit - 1, by omega⟩
      have hLess : text.length ≤ limit := by omega
      obtain ⟨others, hOthers, hRead⟩ := ih hLess (p.advance piece)
      refine ⟨written :: others, ?_, ?_⟩
      · rw [Takes, List.append_assoc, Text.Position.advance_append]
        exact hTakes.upToMany_cons hOthers
      · intro element before hDistinct
        have hNew : before.any (·.name == written.name) = false := by
          rw [Bool.eq_false_iff]
          intro hAny
          obtain ⟨other, hMem, hSame⟩ := List.any_eq_true.mp hAny
          rw [beq_iff_eq, hName] at hSame
          rw [List.map_append, List.nodup_append] at hDistinct
          exact hDistinct.2.2 _ (List.mem_map_of_mem hMem) _ List.mem_cons_self hSame
        have hThis : (⟨written.name, first.value⟩ : Attribute) = first := by
          rw [hName]
        rw [readAttributes, hValue]
        have hBehind := hRead element (before ++ [first]) (by
          rw [List.append_assoc]
          exact hDistinct)
        rw [List.append_assoc] at hBehind
        show (if before.any (·.name == written.name) then _ else _) = _
        rw [hNew, if_neg Bool.false_ne_true, hThis]
        exact hBehind

end LiveMarkup.Markup
