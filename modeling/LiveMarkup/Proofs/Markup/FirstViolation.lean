import LiveMarkup.Proofs.Markup.Equality
import LiveMarkup.Proofs.Markup.Violations

/-!
# The violation that is told

A text that obeys the grammar is a document if nothing is wrong with it, and otherwise
one violation is told: the first of those that are listed for it. Where it is told and
where it is may be two lines, as white space, values and runs of character data may
have line feeds. Nor need it be the first in document order, as an attribute that is
there already is looked at from its value on.

Checking goes piece by piece and stops at the first fault, and violations are listed
piece by piece. So for each check there is one lemma, which says that the check answers
the violations of its piece, and checks behind each other answer lists behind each
other.

## Main definitions

* `Violation.fault`, `Violation.error` — what is told of a violation, and where.
* `Answers` — a check tells the first of the given violations, if there is one.

## Main results

* `Verbatim.answers_read` — the checks of a piece answer its violations.
* `Document.first_violation_of_read` — **of a text that obeys the grammar the first
  violation is told, at its front**.
* `Document.read_repetition` — a name that is repeated is told on the line above.
-/

namespace LiveMarkup.Markup

open Text (Position)

/-! ## What is told -/

/-- What is told of a stray with the given text behind it. -/
def strayText (behind : List Char) : List Char :=
  match Reference.splitSemicolon behind with
  | none => behind.take 8
  | some (inside, _) => inside

theorem tells_strayText (behind : List Char) : Tells behind (strayText behind) := by
  rw [strayText]
  split
  · rename_i hSplit
    exact .inr ⟨splitSemicolon_eq_none_iff.mp hSplit, rfl⟩
  · rename_i inside rest hSplit
    obtain ⟨hBehind, hEnd⟩ := splitSemicolon_eq_some_iff.mp hSplit
    exact .inl ⟨rest, hBehind, hEnd⟩

namespace Violation

def fault : Violation → Fault
  | repetition _ a element =>
    .duplicateAttribute (String.ofList a.name) (String.ofList element)
  | stray _ _ behind => .unknownReference (String.ofList (strayText behind))
  | mismatch _ close element line =>
    .mismatchedClose (String.ofList close.name) (String.ofList element) line

def error (v : Violation) : ReadError :=
  .malformed (Position.start.advance v.front) v.fault

end Violation

/-- The check finds nothing wrong if there are no violations, and otherwise tells the
first one. -/
def Answers {α : Type} : List Violation → Except ReadError α → Prop
  | [], result => ∃ a, result = .ok a
  | v :: _, result => result = .error v.error

namespace Answers

variable {α β : Type} {vs ws : List Violation} {result : Except ReadError α}

/-- Checks behind each other answer lists behind each other. -/
theorem bind {f : α → Except ReadError β} (h : Answers vs result) (hRest : ∀ a, Answers ws (f a)) :
    Answers (vs ++ ws) (result >>= f) := by
  cases vs with
  | nil =>
      obtain ⟨a, rfl⟩ := h
      exact hRest a
  | cons v vs =>
      obtain rfl := h
      rfl

theorem map_iff (f : α → β) : Answers vs (result.map f) ↔ Answers vs result := by
  cases result with
  | ok a =>
      cases vs with
      | nil => exact ⟨fun _ => ⟨a, rfl⟩, fun _ => ⟨f a, rfl⟩⟩
      | cons v vs => exact ⟨nofun, nofun⟩
  | error e =>
      cases vs with
      | nil => exact ⟨nofun, nofun⟩
      | cons v vs =>
          exact ⟨fun h => congrArg Except.error (Except.error.inj h),
            fun h => congrArg Except.error (Except.error.inj h)⟩

theorem bind_return (h : Answers vs result) (f : α → β) :
    Answers vs (do let a ← result; return f a : Except ReadError β) := by
  have hMap : (do let a ← result; return f a : Except ReadError β) = result.map f := by
    cases result <;> rfl
  rw [hMap]
  exact (map_iff f).mpr h

/-- What is told is told of the first violation. -/
theorem exists_of_error {e : ReadError} (h : Answers vs result) (hError : result = .error e) :
    ∃ v, vs.head? = some v ∧ e = v.error := by
  cases vs with
  | nil =>
      obtain ⟨a, hOk⟩ := h
      exact nomatch hOk.symm.trans hError
  | cons v vs => exact ⟨v, rfl, Except.error.inj (hError.symm.trans h)⟩

end Answers

/-! ## Values and runs -/

theorem Refers.append {Is : List Char → Char → Prop} {behind : List Char} (h : Refers Is behind)
    (rest : List Char) : Refers Is (behind ++ rest) := by
  obtain ⟨inside, c, back, hInside, rfl⟩ := h
  exact ⟨inside, c, back ++ rest, hInside, by rw [List.append_assoc, List.cons_append]⟩

/-- No stray is in front of the first one. -/
theorem strays_append {between raw : List Char} (hAll : AllRefer Tolerated raw)
    (front rest : List Char) :
    strays front between (raw ++ rest) = strays front (between ++ raw) rest := by
  induction raw generalizing between with
  | nil => rw [List.nil_append, List.append_nil]
  | cons c raw ih =>
      have hRefers : ¬ (c = '&' ∧ ¬ Refers Tolerated (raw ++ rest)) := by
        rintro ⟨rfl, hNot⟩
        exact hNot ((allRefer_amp.mp hAll).1.append rest)
      have hTail : AllRefer Tolerated raw := by
        by_cases hAmp : c = '&'
        · subst hAmp
          exact (allRefer_amp.mp hAll).2
        · exact (allRefer_raw hAmp).mp hAll
      rw [List.cons_append, strays, if_neg hRefers, List.nil_append, ih hTail, List.append_assoc,
        List.singleton_append]

theorem strays_eq_nil {raw : List Char} (hAll : AllRefer Tolerated raw)
    (front between : List Char) : strays front between raw = [] := by
  have hNone := @strays_append between raw hAll front []
  rwa [List.append_nil] at hNone

/-- **A value or a run is refused for its first stray**, at its own beginning. -/
theorem answers_readText (front raw : List Char) :
    Answers (strays front [] raw) (readText (Position.start.advance front) raw) := by
  rw [readText]
  cases hDecode : Reference.decode raw with
  | ok value =>
      rw [strays_eq_nil (allRefer_of_decode hDecode)]
      exact ⟨String.ofList value, rfl⟩
  | error told =>
      obtain ⟨before, behind, rfl, hAll, hStray, hTells⟩ := decode_eq_error_iff.mp hDecode
      have hTold : told = strayText behind := Except.error.inj
        (((decode_stray_iff hStray).mpr hTells).symm.trans
          ((decode_stray_iff hStray).mpr (tells_strayText behind)))
      rw [strays_append hAll, strays, if_pos ⟨rfl, hStray⟩, hTold]
      rfl

/-! ## Tags -/

theorem any_name_iff {read : List Attribute} {before : List (List Char)} {name : List Char}
    (h : read.map Attribute.name = before.map String.ofList) :
    read.any (·.name == String.ofList name) = true ↔ name ∈ before := by
  have hMem : read.any (·.name == String.ofList name) = true ↔
      String.ofList name ∈ read.map Attribute.name := by
    simp only [List.any_eq_true, beq_iff_eq, List.mem_map]
  rw [hMem, h, List.mem_map_of_injective fun _ _ hEq => String.ofList_injective hEq]

theorem VerbatimAttribute.answers_read (element : List Char) {before : List (List Char)}
    {read : List Attribute} (h : read.map Attribute.name = before.map String.ofList)
    (front : List Char) (attributes : List VerbatimAttribute) :
    Answers (violationsAll element before front attributes)
      (readAttributes (String.ofList element) read
        (writtenAll (Position.start.advance front) attributes)) := by
  induction attributes generalizing before read front with
  | nil => exact ⟨read, rfl⟩
  | cons a rest ih =>
      rw [violationsAll, violations, writtenAll, readAttributes, List.append_assoc, written]
      rw [← Position.advance_append, ← Position.advance_append]
      refine (answers_readText (front ++ a.opening) a.value).bind fun value => ?_
      by_cases hRepeated : a.name ∈ before
      · rw [if_pos hRepeated, if_pos ((any_name_iff h).mpr hRepeated)]
        rfl
      · rw [if_neg hRepeated, if_neg (mt (any_name_iff h).mp hRepeated), List.nil_append]
        exact ih (by rw [List.map_append, List.map_append, h]; rfl) (front ++ a.text)

theorem VerbatimTag.answers_read (front : List Char) (close : Option WrittenClose)
    (tag : VerbatimTag) :
    Answers (tag.violations front)
      (readAttributes (String.ofList tag.name) []
        (tag.written (Position.start.advance front) close).attributes) := by
  rw [written, ← Position.advance_append]
  exact VerbatimAttribute.answers_read tag.name rfl (front ++ tag.opening) tag.attributes

/-- A closing tag is told where it is. -/
theorem VerbatimClose.answers_check (front behind : List Char) (tag : VerbatimTag)
    (close : VerbatimClose) :
    Answers (close.violations (front ++ behind) tag.name (lineAfter 1 front))
      (tag.written (Position.start.advance front)
        (some (close.written ((Position.start.advance front).advance behind)))).checkClose := by
  rw [violations, WrittenTag.checkClose, ← Position.advance_append]
  by_cases hSame : close.name = tag.name
  · rw [if_pos hSame]
    exact ⟨(), if_pos (congrArg String.ofList hSame)⟩
  · rw [if_neg hSame]
    refine (if_neg fun hEq => hSame (String.ofList_injective hEq)).trans ?_
    have hLine : (Position.start.advance front).line = lineAfter 1 front :=
      line_advance_eq rfl front
    rw [VerbatimTag.written, hLine]
    rfl

/-! ## Pieces -/

/-- The checks of an element answer the violations of its parts. -/
theorem answers_checks {γ : Type} {written : WrittenTag} {pieces : List WrittenNode}
    {vs inner last : List Violation} (f : List Attribute → List Node → γ)
    (hAttributes : Answers vs (readAttributes written.name [] written.attributes))
    (hContent : Answers inner (WrittenNode.readAll pieces))
    (hClose : Answers last written.checkClose) :
    Answers (vs ++ (inner ++ last))
      (do
        let attributes ← readAttributes written.name [] written.attributes
        let nodes ← WrittenNode.readAll pieces
        written.checkClose
        return f attributes nodes : Except ReadError γ) :=
  hAttributes.bind fun attributes => hContent.bind fun nodes =>
    hClose.bind_return fun _ => f attributes nodes

theorem strays_of_isBlank {raw : List Char} (h : IsBlank raw) (front : List Char) :
    strays front [] raw = [] := by
  refine strays_eq_nil (allRefer_of_not_mem fun hMem => ?_) front []
  exact absurd (h '&' hMem) (by decide)

namespace Verbatim

mutual

/-- **The checks of a piece answer its violations.** -/
theorem answers_read : (piece : Verbatim) → (front : List Char) →
    Answers (piece.violations front) (piece.written (Position.start.advance front)).read
  | single tag, front => by
      have hContent : Answers [] (WrittenNode.readAll []) := ⟨[], rfl⟩
      have hClose : Answers [] (tag.written (Position.start.advance front) none).checkClose :=
        ⟨(), rfl⟩
      rw [violations, written, WrittenNode.read, ← List.append_nil (tag.violations front)]
      exact answers_checks _ (tag.answers_read front none) hContent hClose
  | element tag content close, front => by
      have hContent := answers_readAll content (front ++ opening tag)
      rw [Position.advance_append] at hContent
      rw [violations, written, WrittenNode.read]
      exact answers_checks _ (tag.answers_read front _) hContent
        (close.answers_check front (opening tag ++ textAll content) tag)
  | run raw hNe hRaw, front => by
      rw [violations, written, WrittenNode.read]
      by_cases hBlank : IsBlank raw
      · rw [if_pos (List.all_eq_true.mpr hBlank), strays_of_isBlank hBlank]
        exact ⟨none, rfl⟩
      · rw [if_neg fun hAll => hBlank (List.all_eq_true.mp hAll)]
        exact (answers_readText front raw).bind_return _
  | cdata .., _ => ⟨_, rfl⟩
  | comment .., _ => ⟨_, rfl⟩
  | instruction .., _ => ⟨_, rfl⟩

theorem answers_readAll : (pieces : List Verbatim) → (front : List Char) →
    Answers (violationsAll front pieces)
      (WrittenNode.readAll (writtenAll (Position.start.advance front) pieces))
  | [], _ => ⟨[], rfl⟩
  | piece :: rest, front => by
      rw [violationsAll, writtenAll, WrittenNode.readAll, ← Position.advance_append]
      exact (answers_read piece front).bind fun node =>
        (answers_readAll rest (front ++ piece.text)).bind_return _

end

end Verbatim

/-! ## Documents -/

theorem checks_map {γ δ : Type} (written : WrittenTag) (pieces : List WrittenNode)
    (f : List Attribute → List Node → γ) (g : γ → δ) :
    (do
      let attributes ← readAttributes written.name [] written.attributes
      let nodes ← WrittenNode.readAll pieces
      written.checkClose
      return g (f attributes nodes) : Except ReadError δ) =
    (do
      let attributes ← readAttributes written.name [] written.attributes
      let nodes ← WrittenNode.readAll pieces
      written.checkClose
      return f attributes nodes : Except ReadError γ).map g := by
  cases readAttributes written.name [] written.attributes with
  | error e => rfl
  | ok attributes =>
      cases WrittenNode.readAll pieces with
      | error e => rfl
      | ok nodes => cases written.checkClose <;> rfl

/-- A document is checked as its root element is. -/
theorem answers_document {written : WrittenDocument} {tag : WrittenTag}
    {content : List WrittenNode} {vs : List Violation} (hRoot : written.root = some (tag, content))
    (h : Answers vs (WrittenNode.element tag content).read) : Answers vs written.read := by
  have hElement := checks_map tag content Prod.mk fun both =>
    some (Node.element ⟨tag.name, both.1, tag.start.line⟩ both.2)
  have hDocument := checks_map tag content Prod.mk fun both =>
    (⟨instructionsOf written.prolog ++ instructionsOf written.epilog,
      ⟨tag.name, both.1, tag.start.line⟩, both.2⟩ : Document)
  rw [WrittenNode.read] at h
  have hBoth := (Answers.map_iff _).mp ((congrArg (Answers vs) hElement).mp h)
  rw [WrittenDocument.read, hRoot]
  exact (congrArg (Answers vs) hDocument).mpr ((Answers.map_iff _).mpr hBoth)

/-- What is told of a text that obeys the grammar is told of its first violation. -/
theorem exists_violation_of_read {source : String} {written : WrittenDocument}
    {position : Position} {fault : Fault}
    (hWritten : readWritten (dropByteOrderMark source.toList) = .ok written)
    (h : Document.read source = .error (.malformed position fault)) :
    ∃ verbatim : VerbatimDocument, verbatim.text = source.toList ∧
      verbatim.behindMark = dropByteOrderMark source.toList ∧
      ∃ v, verbatim.violations.head? = some v ∧
        position = Position.start.advance v.front ∧ fault = v.fault := by
  rw [Document.read, hWritten] at h
  cases hRoot : written.root with
  | none =>
      have hNone : written.read = .error .noRootElement := by rw [WrittenDocument.read, hRoot]
      cases hNone.symm.trans h
  | some root =>
      obtain ⟨verbatim, hText, hBehind, hElement⟩ := exists_document hWritten hRoot
      have hAnswers := verbatim.root.answers_read verbatim.opening
      rw [hElement] at hAnswers
      obtain ⟨v, hFirst, hTold⟩ := (answers_document hRoot hAnswers).exists_of_error h
      cases hTold
      exact ⟨verbatim, hText, hBehind, v, hFirst, rfl, rfl⟩

/--
**Of a text that obeys the grammar the first violation is told, at its front.** The
source of a text that is refused can be taken apart to the character, and what is wrong
with it can be listed. The list is in document order, but that a stray in the value of
an attribute comes before the name of the attribute. The first one is told, at the place
behind its front, and on its own line exactly if there is no line feed between the two.
-/
theorem Document.first_violation_of_read {source : String} {written : WrittenDocument}
    {position : Position} {fault : Fault}
    (hWritten : readWritten (dropByteOrderMark source.toList) = .ok written)
    (h : Document.read source = .error (.malformed position fault)) :
    ∃ verbatim : VerbatimDocument, verbatim.text = source.toList ∧
      (∀ v ∈ verbatim.violations,
        ∃ back, source.toList = verbatim.mark ++ (v.place ++ (v.construct ++ back))) ∧
      verbatim.violations.Pairwise Violation.Before ∧
      ∃ v, verbatim.violations.head? = some v ∧
        position = Position.start.advance v.front ∧ fault = v.fault ∧
        (position.line = 1 + (verbatim.mark ++ v.place).count '\n' ↔ '\n' ∉ v.offset) := by
  obtain ⟨verbatim, hText, -, v, hFirst, rfl, rfl⟩ := exists_violation_of_read hWritten h
  have hArranged := verbatim.root.arranged verbatim.opening
  refine ⟨verbatim, hText, fun v hMem => ?_, hArranged.pairwise, v, hFirst, rfl, rfl, ?_⟩
  · obtain ⟨back, hBehind⟩ := VerbatimDocument.exists_of_mem_violations hMem
    exact ⟨back, by rw [← hText, VerbatimDocument.text, hBehind]⟩
  · have hLine := verbatim.lineAfter_mark 1 v.place
    rw [lineAfter, lineAfter] at hLine
    rw [hLine, Violation.place, List.count_append, Position.line_advance,
      ← List.count_eq_zero]
    show 1 + v.front.count '\n' = _ ↔ _
    omega

/-- Three violations, and the name of the attribute is in front of the one that is told. -/
theorem Document.first_violation_of_read_reference :
    ∃ verbatim : VerbatimDocument, verbatim.text = "<a\nb='1' b='\n&y;'></c>".toList ∧
      verbatim.violations.Pairwise Violation.Before ∧
      ∃ v, verbatim.violations.head? = some v ∧ ⟨12, 2, 10⟩ = Position.start.advance v.front ∧
        .unknownReference "y" = v.fault := by
  have hWritten : readWritten (dropByteOrderMark "<a\nb='1' b='\n&y;'></c>".toList) =
      .ok ⟨[], some (⟨⟨0, 1, 1⟩, "a", [⟨⟨2, 1, 3⟩, "b", ⟨6, 2, 4⟩, ['1']⟩,
        ⟨⟨8, 2, 6⟩, "b", ⟨12, 2, 10⟩, ['\n', '&', 'y', ';']⟩],
        some ⟨⟨18, 3, 6⟩, "c"⟩⟩, []), []⟩ := rfl
  have hRead : Document.read "<a\nb='1' b='\n&y;'></c>" =
      .error (.malformed ⟨12, 2, 10⟩ (.unknownReference "y")) := by decide +kernel
  obtain ⟨verbatim, hText, -, hOrder, v, hFirst, hPosition, hFault, -⟩ :=
    Document.first_violation_of_read hWritten hRead
  exact ⟨verbatim, hText, hOrder, v, hFirst, hPosition, hFault⟩

/-- A name that is repeated on a line of its own is told on the line above. -/
theorem Document.read_repetition :
    (∃ front, "<a b=\"1\"\n b=\"2\"/>".toList = front ++ ['b', '=', '"', '2', '"', '/', '>'] ∧
      1 + front.count '\n' = 2) ∧
    Document.read "<a b=\"1\"\n b=\"2\"/>" =
      .error (.malformed ⟨8, 1, 9⟩ (.duplicateAttribute "b" "a")) := by
  refine ⟨⟨"<a b=\"1\"\n ".toList, rfl, rfl⟩, ?_⟩
  decide +kernel

end LiveMarkup.Markup
