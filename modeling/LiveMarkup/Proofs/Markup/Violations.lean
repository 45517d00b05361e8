import LiveMarkup.Proofs.Markup.Strays
import LiveMarkup.Proofs.Markup.TakenVerbatim

/-!
# Violations

A text that obeys the grammar may still be no document. Three things may be wrong with
it, any number of times: an attribute has the name of an earlier one of its element, an
ampersand begins no reference, and an element is closed by another name than its own.

Each of them is a violation, which is told at one place and is at another: an attribute
is told where the white space in front of its name begins, and a stray ampersand where
the value or the run of character data begins that has it. Only a closing tag is told
where it is.

The violations of a piece are listed in the order in which they are looked for. This is
document order but for one thing: the value of an attribute is looked at before its
name.

## Main definitions

* `Violation` — something that is wrong, with `Violation.front` in front of where it is
  told and `Violation.place` in front of where it is.
* `Verbatim.violations` — what is wrong with a piece.
* `Violation.Before` — document order, with its exception.

## Main results

* `Verbatim.arranged` — violations are at different places of their piece, and listed
  in that order.
-/

namespace LiveMarkup.Markup

open Text (Position)

/-! ## Violations -/

/-- Something that is wrong with a text that obeys the grammar. -/
inductive Violation where
  /-- An attribute behind the given text, of an element that has its name already. -/
  | repetition (front : List Char) (a : VerbatimAttribute) (element : List Char)
  /-- An ampersand that begins no reference, in a value or in character data. What is
  around it there are the texts `between` and `behind`. -/
  | stray (front between behind : List Char)
  /-- A closing tag behind the given text, of an element of another name. -/
  | mismatch (front : List Char) (close : VerbatimClose) (element : List Char) (line : Nat)

namespace Violation

/-- The text in front of where the violation is told. -/
def front : Violation → List Char
  | repetition front _ _ => front
  | stray front _ _ => front
  | mismatch front _ _ _ => front

/-- The text between where the violation is told and where it is. -/
def offset : Violation → List Char
  | repetition _ a _ => a.gap
  | stray _ between _ => between
  | mismatch .. => []

/-- The text in front of where the violation is. -/
def place (v : Violation) : List Char :=
  v.front ++ v.offset

/-- What is wrong: the name of the attribute, the ampersand with what stands behind it, or
the closing tag. -/
def construct : Violation → List Char
  | repetition _ a _ => a.name
  | stray _ _ behind => '&' :: behind
  | mismatch _ close _ _ => close.text

theorem construct_ne_nil (v : Violation) : v.construct ≠ [] := by
  cases v with
  | repetition front a element =>
      obtain ⟨first, rest, hName, -⟩ := a.isName
      rw [construct, hName]
      exact List.cons_ne_nil _ _
  | stray front between behind => exact List.cons_ne_nil _ _
  | mismatch front close element line => exact List.cons_ne_nil _ _

end Violation

/-! ## The violations of a piece -/

instance (behind : List Char) : Decidable (Refers Tolerated behind) :=
  match hSplit : Reference.splitSemicolon behind with
  | none => isFalse fun h => by
      obtain ⟨_, _, _, hSome, _⟩ := refers_iff.mp h
      exact nomatch hSplit.symm.trans hSome
  | some (inside, rest) =>
    match hResolve : Reference.resolve? inside with
    | none => isFalse fun h => by
        obtain ⟨_, _, _, hSome, hChar⟩ := refers_iff.mp h
        cases hSplit.symm.trans hSome
        exact nomatch hResolve.symm.trans hChar
    | some c => isTrue (refers_iff.mpr ⟨inside, rest, c, hSplit, hResolve⟩)

/-- The strays of a value or a run that begins behind the given text, from one place in
it on. -/
def strays (front between : List Char) : List Char → List Violation
  | [] => []
  | c :: rest =>
    (if c = '&' ∧ ¬ Refers Tolerated rest then [.stray front between rest] else []) ++
      strays front (between ++ [c]) rest

/-- The violations of an attribute behind the given text, of an element with the given
name that has attributes with other names already. -/
def VerbatimAttribute.violations (element : List Char) (before : List (List Char))
    (front : List Char) (a : VerbatimAttribute) : List Violation :=
  strays (front ++ a.opening) [] a.value ++
    if a.name ∈ before then [.repetition front a element] else []

/-- The violations of attributes in a row. -/
def VerbatimAttribute.violationsAll (element : List Char) (before : List (List Char))
    (front : List Char) : List VerbatimAttribute → List Violation
  | [] => []
  | a :: rest =>
    a.violations element before front ++
      violationsAll element (before ++ [a.name]) (front ++ a.text) rest

def VerbatimTag.violations (front : List Char) (tag : VerbatimTag) : List Violation :=
  VerbatimAttribute.violationsAll tag.name [] (front ++ tag.opening) tag.attributes

/-- The violation that a closing tag may be, of an element with the given name that was
opened on the given line. -/
def VerbatimClose.violations (front element : List Char) (line : Nat) (close : VerbatimClose) :
    List Violation :=
  if close.name = element then [] else [.mismatch front close element line]

namespace Verbatim

mutual

/-- What is wrong with a piece that stands behind the given text. -/
def violations (front : List Char) : Verbatim → List Violation
  | single tag => tag.violations front
  | element tag content close =>
    tag.violations front ++
      (violationsAll (front ++ opening tag) content ++
        close.violations (front ++ (opening tag ++ textAll content)) tag.name
          (lineAfter 1 front))
  | run raw _ _ => strays front [] raw
  | cdata .. => []
  | comment .. => []
  | instruction .. => []

/-- What is wrong with pieces in a row, the first of which stands behind the given text. -/
def violationsAll (front : List Char) : List Verbatim → List Violation
  | [] => []
  | piece :: rest => piece.violations front ++ violationsAll (front ++ piece.text) rest

end

end Verbatim

/-- What is wrong with a document. Nothing can be outside the root element. -/
def VerbatimDocument.violations (document : VerbatimDocument) : List Violation :=
  document.root.violations document.opening

/-! ## Where violations are -/

/-- The first violation is in front of the second one, or it is in the value of an
attribute and the second one is the name of the attribute. -/
def Violation.Before (v w : Violation) : Prop :=
  v.place.length < w.place.length ∨ ∃ front a element between behind,
    v = .stray (front ++ a.opening) between behind ∧ w = .repetition front a element

/-- The violation is in the text, which stands behind another one. -/
def Violation.Within (front text : List Char) (v : Violation) : Prop :=
  ∃ mid back, v.place = front ++ mid ∧ text = mid ++ (v.construct ++ back)

/-- Violations in a text, which stands behind another one, in their order. -/
structure Arranged (front text : List Char) (vs : List Violation) : Prop where
  within : ∀ v ∈ vs, v.Within front text
  pairwise : vs.Pairwise Violation.Before

namespace Arranged

variable {front text back : List Char} {v : Violation} {vs ws : List Violation}

theorem nil : Arranged front text [] :=
  ⟨fun _ hMem => absurd hMem List.not_mem_nil, .nil⟩

theorem singleton (h : v.Within front text) : Arranged front text [v] := by
  refine ⟨fun w hMem => ?_, List.pairwise_singleton _ v⟩
  obtain rfl := List.mem_singleton.mp hMem
  exact h

/-- Violations in a text come before those in the text behind it. -/
theorem append (h : Arranged front text vs) (hBack : Arranged (front ++ text) back ws) :
    Arranged front (text ++ back) (vs ++ ws) := by
  constructor
  · intro v hMem
    rcases List.mem_append.mp hMem with hFirst | hSecond
    · obtain ⟨mid, rest, hPlace, rfl⟩ := h.within v hFirst
      exact ⟨mid, rest ++ back, hPlace, by simp only [List.append_assoc]⟩
    · obtain ⟨mid, rest, hPlace, rfl⟩ := hBack.within v hSecond
      exact ⟨text ++ mid, rest, by rw [hPlace, List.append_assoc],
        (List.append_assoc _ _ _).symm⟩
  · refine List.pairwise_append.mpr ⟨h.pairwise, hBack.pairwise, fun v hFirst w hSecond => ?_⟩
    -- what is wrong is not empty, and so ends behind where it begins
    obtain ⟨mid, rest, hPlace, rfl⟩ := h.within v hFirst
    obtain ⟨mid', rest', hPlace', -⟩ := hBack.within w hSecond
    have hSome := List.length_pos_iff.mpr v.construct_ne_nil
    refine .inl ?_
    rw [hPlace, hPlace']
    simp only [List.length_append]
    omega

theorem append_text (h : Arranged front text vs) (back : List Char) :
    Arranged front (text ++ back) vs := by
  have hAll := h.append (@nil (front ++ text) back)
  rwa [List.append_nil] at hAll

theorem text_append (h : Arranged (front ++ text) back vs) : Arranged front (text ++ back) vs :=
  (@nil front text).append h

end Arranged

/-- The strays of a text are in it, from left to right. -/
theorem arranged_strays (front between raw : List Char) :
    Arranged (front ++ between) raw (strays front between raw) := by
  induction raw generalizing between with
  | nil => exact .nil
  | cons c rest ih =>
      have hRest := ih (between ++ [c])
      rw [← List.append_assoc] at hRest
      rw [strays]
      split
      · rename_i hStray
        obtain ⟨rfl, -⟩ := hStray
        refine ⟨?_, List.pairwise_cons.mpr ⟨fun w hMem => ?_, hRest.pairwise⟩⟩
        · rw [List.singleton_append, List.forall_mem_cons]
          exact ⟨⟨[], [], (List.append_nil _).symm, (List.append_nil _).symm⟩,
            hRest.text_append.within⟩
        · obtain ⟨mid, back, hPlace, -⟩ := hRest.within w hMem
          refine .inl ?_
          rw [hPlace]
          simp only [Violation.place, Violation.front, Violation.offset, List.length_append,
            List.length_singleton]
          omega
      · exact hRest.text_append

theorem eq_stray_of_mem {front between raw : List Char} {v : Violation}
    (h : v ∈ strays front between raw) : ∃ mid behind, v = .stray front mid behind := by
  induction raw generalizing between with
  | nil => exact absurd h List.not_mem_nil
  | cons c rest ih =>
      rw [strays] at h
      rcases List.mem_append.mp h with hHere | hRest
      · split at hHere
        · exact ⟨between, rest, List.mem_singleton.mp hHere⟩
        · exact absurd hHere List.not_mem_nil
      · exact ih hRest

namespace VerbatimAttribute

theorem within_text (front element : List Char) (a : VerbatimAttribute) :
    (Violation.repetition front a element).Within front a.text := by
  refine ⟨a.gap,
    a.before ++ (['='] ++ (a.behind ++ ([a.quote] ++ (a.value ++ [a.quote])))), rfl, ?_⟩
  rw [text, opening]
  simp only [Violation.construct, List.append_assoc]

/-- The strays of a value are told before the name in front of it. -/
theorem arranged (element : List Char) (before : List (List Char)) (front : List Char)
    (a : VerbatimAttribute) : Arranged front a.text (a.violations element before front) := by
  have hStrays := arranged_strays (front ++ a.opening) [] a.value
  rw [List.append_nil] at hStrays
  have hValue := (hStrays.append_text [a.quote]).text_append
  rw [violations]
  split
  · constructor
    · intro v hMem
      rcases List.mem_append.mp hMem with hStray | hName
      · exact hValue.within v hStray
      · obtain rfl := List.mem_singleton.mp hName
        exact a.within_text front element
    · refine List.pairwise_append.mpr ⟨hValue.pairwise, List.pairwise_singleton _ _, ?_⟩
      intro v hStray w hName
      obtain rfl := List.mem_singleton.mp hName
      obtain ⟨mid, behind, rfl⟩ := eq_stray_of_mem hStray
      exact .inr ⟨front, a, element, mid, behind, rfl, rfl⟩
  · rw [List.append_nil]
    exact hValue

theorem arrangedAll (element : List Char) (before : List (List Char)) (front : List Char)
    (attributes : List VerbatimAttribute) :
    Arranged front (textAll attributes) (violationsAll element before front attributes) := by
  induction attributes generalizing before front with
  | nil => exact .nil
  | cons a rest ih => exact (a.arranged element before front).append (ih _ _)

end VerbatimAttribute

theorem VerbatimTag.arranged (front : List Char) (tag : VerbatimTag) :
    Arranged front tag.text (tag.violations front) :=
  ((VerbatimAttribute.arrangedAll tag.name [] (front ++ tag.opening)
    tag.attributes).append_text tag.gap).text_append

theorem VerbatimClose.arranged (front element : List Char) (line : Nat) (close : VerbatimClose) :
    Arranged front close.text (close.violations front element line) := by
  rw [violations]
  split
  · exact .nil
  · exact .singleton ⟨[], [], rfl, (List.append_nil _).symm⟩

namespace Verbatim

mutual

/-- **The violations of a piece are in it**, in document order but for the names of
attributes. -/
theorem arranged : (piece : Verbatim) → (front : List Char) →
    Arranged front piece.text (piece.violations front)
  | single tag, front => (tag.arranged front).append_text _
  | element tag content close, front => by
      rw [violations, text_element]
      have hClose := close.arranged (front ++ (opening tag ++ textAll content)) tag.name
        (lineAfter 1 front)
      rw [← List.append_assoc front] at hClose ⊢
      exact ((tag.arranged front).append_text ['>']).append
        ((arrangedAll content (front ++ opening tag)).append hClose)
  | run raw hNe hRaw, front => by
      have hStrays := arranged_strays front [] raw
      rwa [List.append_nil] at hStrays
  | cdata .., _ => .nil
  | comment .., _ => .nil
  | instruction .., _ => .nil

theorem arrangedAll : (pieces : List Verbatim) → (front : List Char) →
    Arranged front (textAll pieces) (violationsAll front pieces)
  | [], _ => .nil
  | piece :: rest, front => (arranged piece front).append (arrangedAll rest _)

end

end Verbatim

/-- What is wrong with a document is in its source, behind the mark. -/
theorem VerbatimDocument.exists_of_mem_violations {document : VerbatimDocument} {v : Violation}
    (h : v ∈ document.violations) :
    ∃ back, document.behindMark = v.place ++ (v.construct ++ back) := by
  obtain ⟨mid, back, hPlace, hText⟩ :=
    (document.root.arranged document.opening).within v h
  refine ⟨back ++ document.back, ?_⟩
  rw [behindMark, hText, hPlace]
  simp only [List.append_assoc]

end LiveMarkup.Markup
