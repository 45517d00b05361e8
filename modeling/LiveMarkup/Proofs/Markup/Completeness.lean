import LiveMarkup.Proofs.Markup.Content

/-!
# Every layout of a document is read

However a document is laid out, reading the text gives the document back: the
grammar takes every piece of the text for what it is, in spite of its ordered
choices, and the checks that follow it pass.

## Main results

* `takes_asides` — what stands outside the root element is taken, and its
  instructions are kept.
* `Document.read_of_documentText` — **every layout of a document is read as the
  document**.
-/

namespace LiveMarkup.Markup

open Reader

/-! ## Outside the root element -/

/-- The text begins with nothing that may stand outside the root element. -/
def NoAside (rest : List Char) : Prop :=
  EndsHere Grammar.isSpace rest ∧ ¬ ['<', '!', '-', '-'] <+: rest ∧ ¬ ['<', '?'] <+: rest

theorem noAside_nil : NoAside [] :=
  ⟨endsHere_nil, by decide, by decide⟩

theorem refused_aside {rest : List Char} (p : Text.Position) (h : NoAside rest) :
    Refused Grammar.aside ⟨rest, p⟩ :=
  ((refused_comment p h.2.1).map _).orElse
    (((refused_instruction p h.2.2).map _).orElse ((refused_takeWhile1 p h.1).map _))

theorem takes_aside_comment {piece body : List Char} (p : Text.Position) (rest : List Char)
    (h : CommentText piece body) :
    Takes Grammar.aside p piece rest (some (.comment p body)) :=
  ((takes_comment p rest h).map some).orElse_left _

theorem takes_aside_instruction {piece target data : List Char} (p : Text.Position)
    (rest : List Char) (h : InstructionText piece target data) :
    ∃ raw, Takes Grammar.aside p piece rest
        (some (.instruction p (String.ofList target) raw)) ∧
      instructionData raw = String.ofList data := by
  obtain ⟨raw, hTakes, hData⟩ := takes_instruction p rest h
  refine ⟨raw, ?_, hData⟩
  obtain ⟨tail, rfl⟩ := h.begins
  refine Took.orElse_right ((refused_comment p ?_).map _) ?_
  · simp
  · exact (hTakes.map some).orElse_left _

theorem takes_aside_space {gap rest : List Char} (p : Text.Position) (hSpace : gap ≠ [])
    (hGap : IsGap gap) (hEnds : EndsHere Grammar.isSpace rest) :
    Takes Grammar.aside p gap rest none := by
  have hTakes := takes_space p hSpace hGap hEnds
  obtain ⟨c, gap, rfl⟩ := List.exists_cons_of_ne_nil hSpace
  have hFirst : c ≠ '<' := by
    rintro rfl
    exact absurd (hGap '<' List.mem_cons_self) (by decide)
  have hNot : ∀ stop, ¬ '<' :: stop <+: c :: gap ++ rest := by
    intro stop hPrefix
    rw [List.cons_append, List.cons_prefix_cons] at hPrefix
    exact hFirst hPrefix.1.symm
  refine Took.orElse_right ((refused_comment p (hNot _)).map _) ?_
  exact Took.orElse_right ((refused_instruction p (hNot _)).map _) (hTakes.map _)

/-- However many pieces may be taken, the text is taken, and these are its
instructions. -/
def TakesAsides (text rest : List Char) (instructions : List Instruction) : Prop :=
  ∀ limit p, text.length ≤ limit → ∃ pieces,
    Takes (upToMany Grammar.aside limit) p text rest pieces ∧
      instructionsOf (pieces.filterMap id) = instructions

theorem takesAsides_nil {rest : List Char} (hRest : NoAside rest) : TakesAsides [] rest [] :=
  fun limit p _ => ⟨[], took_upToMany_nil (refused_aside p hRest) limit, rfl⟩

theorem takesAsides_cons {front back rest : List Char} (before : List Instruction)
    {behind : List Instruction} (hNe : front ≠ [])
    (hFront : ∀ p, ∃ piece, Takes Grammar.aside p front (back ++ rest) piece ∧
      instructionsOf piece.toList = before)
    (hBack : TakesAsides back rest behind) : TakesAsides (front ++ back) rest (before ++ behind) := by
  intro limit p hLimit
  have hPositive : 0 < front.length := List.length_pos_iff.mpr hNe
  rw [List.length_append] at hLimit
  obtain ⟨less, rfl⟩ : ∃ less, limit = less + 1 := ⟨limit - 1, by omega⟩
  have hLess : back.length ≤ less := by omega
  obtain ⟨piece, hTakes, hPiece⟩ := hFront p
  obtain ⟨pieces, hRest, hPieces⟩ := hBack less (p.advance front) hLess
  refine ⟨piece :: pieces, ?_, ?_⟩
  · rw [Takes, List.append_assoc, Text.Position.advance_append]
    exact hTakes.upToMany_cons hRest
  · have hSplit : (piece :: pieces).filterMap id = piece.toList ++ pieces.filterMap id := by
      cases piece <;> rfl
    rw [hSplit, instructionsOf, List.filterMap_append]
    exact congrArg₂ (· ++ ·) hPiece hPieces

/-- White space adds nothing. -/
theorem takesAsides_gap {gap back rest : List Char} {behind : List Instruction}
    (hGap : IsGap gap) (hEnds : EndsHere Grammar.isSpace (back ++ rest))
    (hBack : TakesAsides back rest behind) : TakesAsides (gap ++ back) rest behind := by
  by_cases hSpace : gap = []
  · subst hSpace
    exact hBack
  · exact takesAsides_cons [] hSpace
      (fun p => ⟨none, takes_aside_space p hSpace hGap hEnds, rfl⟩) hBack

/-- **What stands outside the root element is taken**, up to something that may
not stand there, and its instructions are kept. -/
theorem takes_asides {text rest : List Char} {instructions : List Instruction}
    (h : AsidesText text instructions) (hRest : NoAside rest) :
    TakesAsides text rest instructions := by
  induction h with
  | @gap gap hGap =>
      have hNothing : TakesAsides (gap ++ []) rest [] :=
        takesAsides_gap hGap hRest.1 (takesAsides_nil hRest)
      rwa [List.append_nil] at hNothing
  | comment hGap hPiece _ ih =>
      obtain ⟨tail, hTail⟩ := hPiece.begins
      refine takesAsides_gap hGap ?_ (takesAsides_cons [] hPiece.ne_nil ?_ ih)
      · rw [hTail]
        exact endsHere_cons (by decide) _
      · exact fun p => ⟨_, takes_aside_comment p _ hPiece, rfl⟩
  | instruction hGap hPiece _ ih =>
      obtain ⟨tail, hTail⟩ := hPiece.begins
      refine takesAsides_gap hGap ?_ (takesAsides_cons [_] hPiece.ne_nil ?_ ih)
      · rw [hTail]
        exact endsHere_cons (by decide) _
      · intro p
        obtain ⟨raw, hTakes, hData⟩ := takes_aside_instruction p _ hPiece
        refine ⟨_, hTakes, ?_⟩
        rw [← hData]
        rfl

theorem takes_many_aside {text rest : List Char} {instructions : List Instruction}
    (h : AsidesText text instructions) (hRest : NoAside rest) (p : Text.Position) :
    ∃ pieces, Takes (many Grammar.aside) p text rest pieces ∧
      instructionsOf (pieces.filterMap id) = instructions := by
  have hLimit : text.length ≤ (text ++ rest).length + 1 :=
    Nat.le_succ_of_le (List.prefix_append _ _).length_le
  obtain ⟨pieces, hTakes, hInstructions⟩ := takes_asides h hRest _ p hLimit
  exact ⟨pieces, Took.many hTakes, hInstructions⟩

/-! ## In front of everything -/

/-- White space at the beginning of a text. -/
theorem exists_gap_append (text : List Char) :
    ∃ gap inner, text = gap ++ inner ∧ IsGap gap ∧ EndsHere Grammar.isSpace inner :=
  ⟨text.takeWhile Grammar.isSpace, text.dropWhile Grammar.isSpace,
    List.takeWhile_append_dropWhile.symm, List.all_eq_true.mp List.all_takeWhile,
    fun _ hMem => Text.head_dropWhile hMem⟩

theorem takes_declaration {piece : List Char} (p : Text.Position) (rest : List Char)
    (h : DeclarationText piece) : Takes Grammar.declaration p piece rest () := by
  cases h with
  | @mk c _ body hSpace hPiece =>
      obtain ⟨rfl, hBody⟩ := hPiece
      -- White space at the beginning of the body is taken along with the first.
      obtain ⟨gap, inner, rfl, hGap, hEnds⟩ := exists_gap_append body
      have hInner : ¬ ['?', '>'] <:+: inner := fun hInfix =>
        hBody (hInfix.trans (List.suffix_append gap inner).isInfix)
      have hAll : IsGap (c :: gap) := by
        intro other hMem
        rcases List.mem_cons.mp hMem with rfl | hMem
        · exact hSpace
        · exact hGap other hMem
      have hShape : ['<', '?', 'x', 'm', 'l', c] ++ ((gap ++ inner) ++ ['?', '>']) =
          ['<', '?', 'x', 'm', 'l'] ++ ((c :: gap) ++ (inner ++ ['?', '>'])) := by
        simp only [List.append_assoc, List.cons_append, List.nil_append]
      rw [hShape]
      refine takes_bind (took_literal _ _ p) (takes_bind (takes_space _ ?_ hAll ?_) ?_)
      · exact List.cons_ne_nil c gap
      · cases inner with
        | nil => exact endsHere_cons (by decide) _
        | cons first inner => exact endsHere_cons (hEnds first rfl) _
      · exact takes_return (takes_body _ (by decide) (by decide) hInner) _

theorem refused_declaration {rest : List Char} (p : Text.Position)
    (h : ¬ BeginsDeclaration rest) : Refused Grammar.declaration ⟨rest, p⟩ := by
  by_cases hBegins : ['<', '?', 'x', 'm', 'l'] <+: rest
  · obtain ⟨tail, rfl⟩ := hBegins
    have hTook := took_literal ['<', '?', 'x', 'm', 'l'] tail p
    have hTail : EndsHere Grammar.isSpace tail := by
      intro c hMem
      rw [Bool.eq_false_iff]
      intro hSpace
      obtain ⟨behind, rfl⟩ : ∃ behind, tail = c :: behind := by
        cases tail with
        | nil => cases hMem
        | cons first behind => exact ⟨behind, by rw [Option.mem_some_iff.mp hMem]⟩
      exact h ⟨c, hSpace, behind, rfl⟩
    exact hTook.bind_refused ((refused_takeWhile1 _ hTail).bind _)
  · exact (refused_literal p hBegins).bind _

theorem takes_optional_declaration {declaration rest : List Char}
    (h : DeclarationText declaration ∨ declaration = [] ∧ ¬ BeginsDeclaration rest) :
    ∃ first, Takes (optional Grammar.declaration) .start declaration rest first := by
  rcases h with hThere | ⟨rfl, hNot⟩
  · exact ⟨_, (takes_declaration _ _ hThere).optional_some⟩
  · exact ⟨_, .optional_none (refused_declaration _ hNot)⟩

theorem ElementText.begins {line : Nat} {root : List Char} {tag : Tag} {content : List Node}
    (h : ElementText line root tag content) :
    ∃ c tail, root = '<' :: c :: tail ∧ Grammar.isNameStart c = true := by
  cases h with
  | mk hTag _ _ =>
      obtain ⟨c, tail, rfl, hFirst⟩ := hTag.begins
      exact ⟨c, _, rfl, hFirst⟩

theorem ElementText.noAside {line : Nat} {root : List Char} {tag : Tag} {content : List Node}
    (h : ElementText line root tag content) (rest : List Char) : NoAside (root ++ rest) := by
  obtain ⟨c, tail, rfl, hFirst⟩ := h.begins
  have hMarkup : ('!' == c) = false ∧ ('?' == c) = false := by
    constructor <;> rw [beq_eq_false_iff_ne] <;> rintro rfl <;> exact absurd hFirst (by decide)
  refine ⟨endsHere_cons (by decide) _, ?_, ?_⟩
  · simpa using fun hEq => absurd hEq (beq_eq_false_iff_ne.mp hMarkup.1)
  · simpa using beq_eq_false_iff_ne.mp hMarkup.2

/-- A byte-order mark is no white space, and nothing else begins with it. -/
theorem AsidesText.endsHere_mark {text rest : List Char} {instructions : List Instruction}
    (h : AsidesText text instructions) (hRest : EndsHere (· == '\ufeff') rest) :
    EndsHere (· == '\ufeff') (text ++ rest) := by
  have hNoMark : ∀ gap, IsGap gap → ∀ c ∈ gap, (c == '\ufeff') = false := by
    intro gap hGap c hMem
    rw [beq_eq_false_iff_ne]
    rintro rfl
    exact absurd (hGap _ hMem) (by decide)
  cases h with
  | gap hGap => exact endsHere_append (hNoMark _ hGap) hRest
  | comment hGap hPiece _ =>
      obtain ⟨tail, rfl⟩ := hPiece.begins
      rw [List.append_assoc]
      exact endsHere_append (hNoMark _ hGap) (endsHere_cons (by decide) _)
  | instruction hGap hPiece _ =>
      obtain ⟨tail, rfl⟩ := hPiece.begins
      rw [List.append_assoc]
      exact endsHere_append (hNoMark _ hGap) (endsHere_cons (by decide) _)

theorem DeclarationText.endsHere_mark {piece : List Char} (h : DeclarationText piece)
    (rest : List Char) : EndsHere (· == '\ufeff') (piece ++ rest) := by
  cases h with
  | mk _ hPiece =>
      obtain ⟨rfl, _⟩ := hPiece
      exact endsHere_cons (by decide) _

theorem dropByteOrderMark_append {mark text : List Char} (hMark : mark = [] ∨ mark = ['\ufeff'])
    (hText : EndsHere (· == '\ufeff') text) : dropByteOrderMark (mark ++ text) = text := by
  rcases hMark with rfl | rfl
  · cases text with
    | nil => rfl
    | cons c text => exact if_neg (beq_eq_false_iff_ne.mp (hText c rfl))
  · rfl

/-! ## Documents -/

/-- The length of the text bounds the number of pieces. -/
theorem takes_of_elementWithin {text rest : List Char} {p : Text.Position}
    {element : WrittenTag × List WrittenNode}
    (h : Takes (Grammar.elementWithin ((text ++ rest).length + 1)) p text rest element) :
    Takes Grammar.element p text rest element :=
  fun trail => h trail

theorem takes_root {line : Nat} {root : List Char} {tag : Tag} {content : List Node}
    (h : ElementText line root tag content) {p : Text.Position} (hLine : p.line = line)
    (rest : List Char) :
    ∃ written pieces, Takes Grammar.element p root rest (written, pieces) ∧
      written.Reads pieces tag content := by
  cases h with
  | @mk head name inner behind attributes _ hTag hContent hClosing =>
      have hInner : inner.length ≤ (head ++ behind ++ rest).length := by
        have hLess := hClosing.length_lt
        simp only [List.length_append]
        omega
      obtain ⟨written, pieces, hTakes, hReads⟩ := takes_element hTag hClosing hContent.eq_nil
        (fun _ tail hInside hTail => takes_content hContent hInner tail hInside hTail) hLine rest
      exact ⟨written, pieces, takes_of_elementWithin hTakes, hReads⟩

/-- A whole text is taken as its written document, which is read as the document. -/
theorem took_document {declaration front root back : List Char}
    {before behind : List Instruction} {tag : Tag} {content : List Node}
    (hDeclaration : DeclarationText declaration ∨
      declaration = [] ∧ ¬ BeginsDeclaration (front ++ (root ++ back)))
    (hFront : AsidesText front before)
    (hRoot : ElementText (lineAfter 1 (declaration ++ front)) root tag content)
    (hBack : AsidesText back behind) :
    ∃ written after,
      Took Grammar.document (.start (declaration ++ (front ++ (root ++ back)))) written after ∧
        written.read = .ok ⟨before ++ behind, tag, content⟩ := by
  have hNoAside : NoAside (root ++ back ++ []) := by
    rw [List.append_assoc]
    exact hRoot.noAside _
  have hLine : ((Text.Position.start.advance declaration).advance front).line =
      lineAfter 1 (declaration ++ front) := by
    rw [← Text.Position.advance_append]
    exact line_advance_eq rfl _
  have hWhole : front ++ (root ++ back) ++ [] = front ++ (root ++ back) := List.append_nil _
  obtain ⟨first, hFirst⟩ := takes_optional_declaration (hWhole.symm ▸ hDeclaration)
  obtain ⟨prolog, hProlog, hBefore⟩ :=
    takes_many_aside hFront hNoAside (Text.Position.start.advance declaration)
  obtain ⟨written, pieces, hElement, hReads⟩ := takes_root hRoot hLine (back ++ [])
  obtain ⟨epilog, hEpilog, hBehind⟩ := takes_many_aside hBack noAside_nil
    (((Text.Position.start.advance declaration).advance front).advance root)
  have hDocument : Takes Grammar.document .start (declaration ++ (front ++ (root ++ back))) []
      ⟨prolog.filterMap id, some (written, pieces), epilog.filterMap id⟩ := by
    refine Took.named (takes_bind hFirst (takes_bind hProlog ?_)) _
    refine takes_bind hElement.optional_some ?_
    exact Took.bind hEpilog (Took.bind ((took_atEnd _).named _) (took_pure _ _))
  rw [Takes, List.append_nil] at hDocument
  refine ⟨_, _, hDocument, ?_⟩
  rw [hReads.read_document, hBefore, hBehind]

theorem readWritten_of_took {text : List Char} {written : WrittenDocument} {after : Cursor}
    (h : Took Grammar.document (.start text) written after) : readWritten text = .ok written := by
  have hHere := h .blank
  rw [readWritten]
  split
  · rename_i hRun
    rw [hRun] at hHere
    cases hHere
    rfl
  · rename_i hRun
    rw [hRun] at hHere
    cases hHere

/--
**Every layout of a document is read as the document**: whatever the text makes
use of among declarations, white space, comments, quotes, references, empty tags
and blank runs, reading succeeds, and gives the tags with their attributes and
lines, the content and the instructions that the text was laid out from.
-/
theorem Document.read_of_documentText {source : String} {document : Document}
    (h : DocumentText source.toList document) : Document.read source = .ok document := by
  generalize hText : source.toList = text at h
  cases h with
  | @mk mark declaration front root back _ _ _ _ hMark hDeclaration hFront hRoot hBack =>
      obtain ⟨written, after, hTook, hRead⟩ := took_document hDeclaration hFront hRoot hBack
      have hNoMark : EndsHere (· == '\ufeff') (declaration ++ (front ++ (root ++ back))) := by
        rcases hDeclaration with hThere | ⟨rfl, _⟩
        · exact hThere.endsHere_mark _
        · refine hFront.endsHere_mark ?_
          obtain ⟨c, tail, rfl, _⟩ := hRoot.begins
          exact endsHere_cons (by decide) _
      rw [Document.read, hText, dropByteOrderMark_append hMark hNoMark, readWritten_of_took hTook]
      exact hRead

/-- A document with an instruction in front, a reference in a value, a blank run
and an element without content. -/
theorem Document.read_of_documentText_nested :
    DocumentText "<?u v?><a b='&#65;'>\n<c/>x&lt;</a>".toList
        ⟨[⟨"u", "v"⟩], ⟨"a", [⟨"b", "A"⟩], 1⟩, [.element ⟨"c", [], 2⟩ [], .text 2 "x<"]⟩ ∧
      Document.read "<?u v?><a b='&#65;'>\n<c/>x&lt;</a>" =
        .ok ⟨[⟨"u", "v"⟩], ⟨"a", [⟨"b", "A"⟩], 1⟩, [.element ⟨"c", [], 2⟩ [], .text 2 "x<"]⟩ := by
  have hName : ∀ c, Grammar.isNameStart c = true → IsName [c] := by
    intro c hStart
    exact ⟨c, [], rfl, hStart, fun _ hMem => nomatch hMem⟩
  have hNoGap : IsGap [] := by decide
  have hNoBlank : IsBlank [] := by decide
  have hTrimmed : Trimmed ['v'] :=
    ⟨fun c hMem => Option.mem_some_iff.mp hMem ▸ by decide,
      fun c hMem => Option.mem_some_iff.mp hMem ▸ by decide⟩
  have hFront : AsidesText ([] ++ ((['<', '?'] ++ (['u'] ++ (([' '] ++ (['v'] ++ [])) ++
      ['?', '>']))) ++ [])) [⟨"u", "v"⟩] := by
    refine .instruction hNoGap ?_ (.gap hNoGap)
    refine .mk (hName 'u' (by decide)) (by decide) hNoBlank hTrimmed (by decide) ?_
    exact fun c hMem => Option.mem_some_iff.mp hMem ▸ by decide
  have hDigits : Numeral 10 (['6'] ++ ['5']) (6 * 10 + 5) :=
    .more (.digit ⟨by decide, .inl rfl⟩) ⟨by decide, .inl rfl⟩
  have hInside : IsReference ['#', '6', '5'] 'A' := .decimal hDigits
  have hValue : Spells (LegalInValue '\'') ['&', '#', '6', '5', ';'] ['A'] :=
    .reference hInside .nil
  have hTag : TagText (['<'] ++ (['a'] ++ (([' '] ++ (['b'] ++ ([] ++ (['='] ++ ([] ++
      (['\''] ++ (['&', '#', '6', '5', ';'] ++ ['\''])))))) ++ []) ++ []))) ['a'] [⟨"b", "A"⟩] := by
    refine .mk (hName 'a' (by decide)) (.cons ?_ .nil) (by decide) hNoGap
    exact .mk (by decide) (by decide) (hName 'b' (by decide)) hNoGap hNoGap (.inr rfl) hValue
  have hRun : ContentText false 2 (['x', '&', 'l', 't', ';'] ++ []) [.text 2 "x<"] :=
    .run (.raw (by decide) (.reference .lt .nil)) (by decide) .nil
  have hContent : ContentText false 1
      (['\n'] ++ (((['<'] ++ (['c'] ++ ([] ++ []))) ++ ['/', '>']) ++
        (['x', '&', 'l', 't', ';'] ++ [])))
      [.element ⟨"c", [], 2⟩ [], .text 2 "x<"] := by
    refine .blank (by decide) (by decide) ?_
    exact .element (.mk (hName 'c' (by decide)) .nil List.nodup_nil hNoGap) .nil .itself hRun
  have hText : DocumentText "<?u v?><a b='&#65;'>\n<c/>x&lt;</a>".toList
      ⟨[⟨"u", "v"⟩], ⟨"a", [⟨"b", "A"⟩], 1⟩, [.element ⟨"c", [], 2⟩ [], .text 2 "x<"]⟩ := by
    refine .mk (.inl rfl) (.inr ⟨rfl, ?_⟩) hFront (.mk hTag hContent (.tag hNoGap)) (.gap hNoGap)
    rintro ⟨c, hSpace, hPrefix⟩
    simp at hPrefix
  exact ⟨hText, Document.read_of_documentText hText⟩

end LiveMarkup.Markup
