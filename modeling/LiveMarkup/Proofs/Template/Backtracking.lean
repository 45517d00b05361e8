import LiveMarkup.Proofs.Markup.Taking
import LiveMarkup.Template.Loop
import Mathlib.Data.List.TakeWhile

/-!
# Reading heads of loops by trial

The head of a loop has the form of a pattern: runs of characters behind each other, each
as long as can be, but for the expression, which is as short as can be. A run is cut
shorter, or longer, when what follows does not fit. `ways` tries everything in this
order; `split?` cuts each run once. They come to the same for every text, since no run
but one can be cut in another place and leave something that fits.

The exception is the white space behind the word. Cut shorter, it leaves a blank
character that can begin the expression; it is of use only where there is no other.

## Main definitions

* `cuts`, `cuts1` — the ways to cut a run off a text.
* `ways` — the ways to read a text as the head of a loop.

## Main results

* `flatMap_cuts` — a run that may not be cut short is cut once.
* `head?_expressions_core`, `head?_expressions_blank` — the expression that is tried
  first.
* `split?_eq_head?` — **a head is split in the way that is tried first**.
-/

namespace LiveMarkup.Template.Loop

open Text (isBlank trimEnd)
open Markup.Reader (EndsHere)

/-! ## Runs and ways -/

/-- The ways to cut a run of characters of a class off a text, the longest run first. -/
def cuts (p : Char → Bool) : List Char → List (List Char × List Char)
  | [] => [([], [])]
  | c :: s =>
    if p c then (cuts p s).map (fun cut => (c :: cut.1, cut.2)) ++ [([], c :: s)]
    else [([], c :: s)]

/-- The ways to cut a run off that has a character. -/
def cuts1 (p : Char → Bool) (s : List Char) : List (List Char × List Char) :=
  (cuts p s).filter fun cut => !cut.1.isEmpty

/-- What can be taken for the expression in front of the white space that ends a text:
runs without line feeds, the shortest first. -/
def expressions (s : List Char) : List (List Char) :=
  (cuts1 (· != '\n') s).reverse.flatMap fun expression =>
  (cuts isBlank expression.2).flatMap fun blank =>
  if blank.2.isEmpty then [expression.1] else []

/-- What can be taken for the expression in what stands behind the item. -/
def collections (s : List Char) : List (List Char) :=
  (cuts1 isBlank s).flatMap fun gap =>
  (behindWord gap.2).toList.flatMap fun s =>
  (cuts1 isBlank s).flatMap fun gap => expressions gap.2

/-- The ways to read a text as the head of a loop, in the order in which they are tried. -/
def ways (s : List Char) : List (List Char × List Char) :=
  (cuts isBlank s).flatMap fun blank =>
  (cuts1 (fun c => !isBlank c) blank.2).flatMap fun item =>
  (collections item.2).map fun collection => (item.1, collection)

theorem cuts1_cons (p : Char → Bool) (c : Char) (s : List Char) : cuts1 p (c :: s) =
    if p c then (cuts p s).map (fun cut => (c :: cut.1, cut.2)) else [] := by
  rw [cuts1, cuts]
  split
  · rw [List.filter_append, List.filter_eq_self.mpr]
    · exact List.append_nil _
    · intro cut hMem
      obtain ⟨_, _, rfl⟩ := List.mem_map.mp hMem
      rfl
  · rfl

/-- Where nothing can be done with a shorter run only the longest is of use. -/
theorem flatMap_cuts {β : Type} {p : Char → Bool} {f : List Char × List Char → List β}
    (hShort : ∀ front c rest, p c = true → f (front, c :: rest) = []) (s : List Char) :
    (cuts p s).flatMap f = f (s.takeWhile p, s.dropWhile p) := by
  induction s generalizing f with
  | nil => simp [cuts]
  | cons c s ih =>
      rw [cuts]
      split
      · rename_i hClass
        rw [List.flatMap_append, List.flatMap_map,
          ih fun front other rest => hShort (c :: front) other rest, List.flatMap_singleton,
          hShort [] c s hClass, List.append_nil, List.takeWhile_cons_of_pos hClass,
          List.dropWhile_cons_of_pos hClass]
      · rename_i hClass
        rw [List.flatMap_singleton, List.takeWhile_cons_of_neg hClass,
          List.dropWhile_cons_of_neg hClass]

theorem flatMap_cuts1 {β : Type} {p : Char → Bool} {f : List Char × List Char → List β}
    (hShort : ∀ front c rest, p c = true → f (front, c :: rest) = []) (s : List Char) :
    (cuts1 p s).flatMap f =
      if (s.takeWhile p).isEmpty then [] else f (s.takeWhile p, s.dropWhile p) := by
  cases s with
  | nil => rfl
  | cons c s =>
      rw [cuts1_cons]
      split
      · rename_i hClass
        rw [List.flatMap_map, flatMap_cuts fun front other rest => hShort (c :: front) other rest,
          List.takeWhile_cons_of_pos hClass, List.dropWhile_cons_of_pos hClass]
        rfl
      · rename_i hClass
        rw [List.takeWhile_cons_of_neg hClass]
        rfl

/-! ## White space at the end -/

theorem isEmpty_dropWhile (p : Char → Bool) (s : List Char) :
    (s.dropWhile p).isEmpty = s.all p := by
  rw [Bool.eq_iff_iff, List.isEmpty_iff, List.dropWhile_eq_nil_iff, List.all_eq_true]

theorem trimEnd_cons (c : Char) (s : List Char) :
    trimEnd (c :: s) = if (c :: s).all isBlank then [] else c :: trimEnd s := by
  rw [trimEnd, trimEnd, Text.dropEndWhile, Text.dropEndWhile, List.reverse_cons,
    List.dropWhile_append, isEmpty_dropWhile, List.all_reverse, List.all_cons]
  by_cases hRest : s.all isBlank = true
  · have hNil : s.reverse.dropWhile isBlank = [] := by
      rw [← List.isEmpty_iff, isEmpty_dropWhile, List.all_reverse, hRest]
    by_cases hBlank : isBlank c = true <;> simp [hRest, hNil, hBlank]
  · simp [hRest]

theorem trimEnd_eq_nil_iff {s : List Char} : trimEnd s = [] ↔ s.all isBlank = true := by
  cases s with
  | nil => exact ⟨fun _ => rfl, fun _ => rfl⟩
  | cons c s =>
      rw [trimEnd_cons]
      split
      · rename_i hAll
        exact ⟨fun _ => hAll, fun _ => rfl⟩
      · rename_i hNot
        exact ⟨nofun, fun hAll => absurd hAll hNot⟩

theorem trimEnd_dropWhile_eq_nil_iff {s : List Char} :
    trimEnd (s.dropWhile isBlank) = [] ↔ s.all isBlank = true := by
  have hParts := congrArg (List.all · isBlank)
    (List.takeWhile_append_dropWhile (p := isBlank) (l := s))
  simp only [List.all_append, List.all_takeWhile, Bool.true_and] at hParts
  rw [trimEnd_eq_nil_iff, hParts]

theorem mem_trimEnd_of_dropWhile {s : List Char} {c : Char}
    (h : c ∈ trimEnd (s.dropWhile isBlank)) : c ∈ trimEnd s := by
  induction s with
  | nil => exact h
  | cons first s ih =>
      by_cases hBlank : isBlank first = true
      · rw [List.dropWhile_cons_of_pos hBlank] at h
        have hBehind := ih h
        rw [trimEnd_cons]
        split
        · rename_i hAll
          rw [trimEnd_eq_nil_iff.mpr (Bool.and_eq_true_iff.mp hAll).2] at hBehind
          cases hBehind
        · exact List.mem_cons_of_mem first hBehind
      · rwa [List.dropWhile_cons_of_neg hBlank] at h

/-! ## Expressions -/

/-- The white space at the end has to reach to the end. -/
theorem flatMap_ends {β : Type} (found : List β) (s : List Char) :
    ((cuts isBlank s).flatMap fun cut => if cut.2.isEmpty then found else []) =
      if s.all isBlank then found else [] := by
  rw [flatMap_cuts fun _ _ _ _ => rfl]
  simp only [isEmpty_dropWhile]

theorem reverse_cuts_cons (p : Char → Bool) (c : Char) (s : List Char) :
    (cuts p (c :: s)).reverse = ([], c :: s) ::
      if p c then (cuts p s).reverse.map (fun cut => (c :: cut.1, cut.2)) else [] := by
  rw [cuts]
  split
  · rw [List.reverse_append, ← List.map_reverse]
    rfl
  · rfl

/-- The shortest run that only white space follows is all up to that white space, and
there is none if a line ends before. -/
theorem head?_runs {β : Type} (f : List Char → β) (s : List Char) :
    ((cuts (· != '\n') s).reverse.flatMap fun cut =>
      if cut.2.all isBlank then [f cut.1] else []).head? =
      if '\n' ∈ trimEnd s then none else some (f (trimEnd s)) := by
  induction s generalizing f with
  | nil => rfl
  | cons c s ih =>
      rw [reverse_cuts_cons, List.flatMap_cons, trimEnd_cons]
      by_cases hBlank : (c :: s).all isBlank = true
      · rw [if_pos hBlank, if_pos hBlank]
        rfl
      · rw [if_neg hBlank, if_neg hBlank, List.nil_append]
        by_cases hLine : c = '\n'
        · rw [hLine, if_pos List.mem_cons_self]
          rfl
        · rw [if_pos (bne_iff_ne.mpr hLine), List.flatMap_map, ih fun front => f (c :: front)]
          simp only [List.mem_cons, Ne.symm hLine, false_or]

/-- What is tried first is what the white space at the end leaves, or the first
character where there is nothing else. -/
theorem head?_expressions_cons (c : Char) (s : List Char) :
    (expressions (c :: s)).head? =
      if '\n' ∈ c :: trimEnd s then none else some (c :: trimEnd s) := by
  simp only [expressions, flatMap_ends]
  rw [cuts1_cons]
  by_cases hLine : c = '\n'
  · rw [hLine, if_pos List.mem_cons_self]
    rfl
  · rw [if_pos (bne_iff_ne.mpr hLine), ← List.map_reverse, List.flatMap_map, head?_runs (c :: ·)]
    simp only [List.mem_cons, Ne.symm hLine, false_or]

/-! ## White space in front of the expression -/

/-- Where there is nothing but white space, the last character of it that ends no line
is taken for the expression. -/
theorem head?_expressions_blank {s : List Char} (h : s.all isBlank = true) :
    ((cuts isBlank s).flatMap fun cut => expressions cut.2).head? =
      (s.reverse.find? (· != '\n')).map fun c => [c] := by
  induction s with
  | nil => rfl
  | cons c s ih =>
      obtain ⟨hBlank, hBehind⟩ := Bool.and_eq_true_iff.mp h
      rw [cuts, if_pos hBlank, List.flatMap_append, List.flatMap_map, List.flatMap_singleton,
        List.head?_append, ih hBehind, head?_expressions_cons, trimEnd_eq_nil_iff.mpr hBehind,
        List.reverse_cons, List.find?_append, Option.map_or]
      by_cases hLine : c = '\n'
      · subst hLine
        rfl
      · have hNot : '\n' ∉ [c] := fun hMem => hLine (List.mem_singleton.mp hMem).symm
        rw [if_neg hNot, List.find?_singleton, if_pos (bne_iff_ne.mpr hLine)]
        rfl

/-- Where there is an expression it is taken, whatever white space is cut off in front of
it, unless a line ends in it. -/
theorem head?_expressions_core {s : List Char} (h : ¬ s.all isBlank = true) :
    ((cuts isBlank s).flatMap fun cut => expressions cut.2).head? =
      if '\n' ∈ trimEnd (s.dropWhile isBlank) then none
      else some (trimEnd (s.dropWhile isBlank)) := by
  induction s with
  | nil => exact absurd rfl h
  | cons c s ih =>
      rw [cuts]
      by_cases hBlank : isBlank c = true
      · have hBehind : ¬ s.all isBlank = true := fun hAll =>
          h (Bool.and_eq_true_iff.mpr ⟨hBlank, hAll⟩)
        rw [if_pos hBlank, List.flatMap_append, List.flatMap_map, List.flatMap_singleton,
          List.head?_append, ih hBehind, head?_expressions_cons, List.dropWhile_cons_of_pos hBlank]
        split
        · rename_i hLine
          rw [if_pos (List.mem_cons_of_mem c (mem_trimEnd_of_dropWhile hLine))]
          rfl
        · rfl
      · rw [if_neg hBlank, List.flatMap_singleton, head?_expressions_cons,
          List.dropWhile_cons_of_neg hBlank, trimEnd_cons, if_neg h]

/-- What stands behind the word is tried in turn and taken as it is read. -/
theorem head?_expressions (s : List Char) :
    ((cuts1 isBlank s).flatMap fun cut => expressions cut.2).head? = collection? s := by
  cases s with
  | nil => rfl
  | cons c s =>
      rw [cuts1_cons]
      by_cases hBlank : isBlank c = true
      · rw [if_pos hBlank, List.flatMap_map, collection?, List.takeWhile_cons_of_pos hBlank,
          List.dropWhile_cons_of_pos hBlank]
        simp only [List.isEmpty_cons, List.isEmpty_iff, trimEnd_dropWhile_eq_nil_iff]
        by_cases hAll : s.all isBlank = true
        · have hRun : s.takeWhile isBlank = s :=
            List.takeWhile_eq_self_iff.mpr (List.all_eq_true.mp hAll)
          rw [head?_expressions_blank hAll, if_pos hAll, hRun]
          rfl
        · rw [head?_expressions_core hAll, if_neg hAll]
          rfl
      · rw [if_neg hBlank, collection?, List.takeWhile_cons_of_neg hBlank]
        rfl

/-! ## Whole heads -/

theorem behindWord_of_blank {c : Char} (h : isBlank c = true) (s : List Char) :
    behindWord (c :: s) = none := by
  unfold behindWord
  split
  · rename_i hEq
    cases hEq
    exact absurd h (by decide)
  · rename_i hEq
    cases hEq
    exact absurd h (by decide)
  · rfl

/-- Behind an item the word is where the white space ends. -/
theorem head?_collections {s : List Char} (hItem : EndsHere (fun c => !isBlank c) s) :
    (collections s).head? = (behindWord (s.dropWhile isBlank)).bind collection? := by
  have hShort : ∀ (front : List Char) c rest, isBlank c = true →
      ((behindWord (c :: rest)).toList.flatMap fun s =>
        (cuts1 isBlank s).flatMap fun gap => expressions gap.2) = [] := by
    intro _ c rest hBlank
    rw [behindWord_of_blank hBlank]
    rfl
  rw [collections, flatMap_cuts1 hShort]
  cases s with
  | nil => rfl
  | cons c s =>
      have hBlank : isBlank c = true := by simpa using hItem c rfl
      rw [List.takeWhile_cons_of_pos hBlank, List.isEmpty_cons, if_neg Bool.false_ne_true]
      cases behindWord ((c :: s).dropWhile isBlank) with
      | none => rfl
      | some behind =>
          rw [Option.toList_some, List.flatMap_singleton, head?_expressions]
          rfl

/-- **A head is split in the way that is tried first.** -/
theorem split?_eq_head? (s : List Char) : split? s = (ways s).head? := by
  have hItem : ∀ (front : List Char) c rest, (!isBlank c) = true →
      ((collections (c :: rest)).map fun collection => (front, collection)) = [] := by
    intro front c rest hText
    rw [collections, cuts1_cons, if_neg (by simpa using hText)]
    rfl
  have hGap : ∀ (front : List Char) c rest, isBlank c = true →
      ((cuts1 (fun c => !isBlank c) (c :: rest)).flatMap fun item =>
        (collections item.2).map fun collection => (item.1, collection)) = [] := by
    intro _ c rest hBlank
    rw [cuts1_cons, hBlank]
    rfl
  rw [ways, flatMap_cuts hGap, flatMap_cuts1 hItem, split?]
  generalize s.dropWhile isBlank = s
  have hRest : ((s.takeWhile fun c => !isBlank c) ++ s.dropWhile fun c => !isBlank c).drop
      (s.takeWhile fun c => !isBlank c).length = s.dropWhile fun c => !isBlank c := List.drop_left
  rw [List.takeWhile_append_dropWhile] at hRest
  have hEnds : EndsHere (fun c => !isBlank c) (s.dropWhile fun c => !isBlank c) :=
    fun c hHead => Text.head_dropWhile hHead
  simp only [hRest]
  split
  · rfl
  · rw [List.head?_map, head?_collections hEnds]
    cases behindWord ((s.dropWhile fun c => !isBlank c).dropWhile isBlank) with
    | none => rfl
    | some behind => exact Option.map_eq_bind.symm

end LiveMarkup.Template.Loop
