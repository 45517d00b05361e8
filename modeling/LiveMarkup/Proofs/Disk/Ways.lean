import LiveMarkup.Proofs.Disk.Steps

/-!
# Where paths lead

The way of a path goes from directory to directory, and where it meets a link it goes
on with the steps of the target. `Leads` is that way, and all that is shown of
following paths is shown along it.

What steps lead to depends on the directories and the links of a tree, and on nothing
else in it. So a tree in which the directories of another one are kept, and the links
are the same, has all the ways of that tree.

## Main results

* `walk_eq_ok_iff`, `locate_eq_ok_iff` — paths are followed along their ways.
* `Kept.leads` — **ways stay ways** where directories and links are kept.
* `Leads.of_moves` — **a way to a directory is told by its moves**.
-/

namespace LiveMarkup.Disk

open Step (moves)

namespace Tree

/-- Steps lead from one place to another, through so many links at most. -/
inductive Leads (tree : Tree) (toTheEnd : Bool) : Nat → Location → List Step → Location → Prop where
  | here (links : Nat) (here : Location) : Leads tree toTheEnd links here [] here
  | step {links : Nat} {here place : Location} {step : Step} {rest : List Step}
      (hDirectory : tree.get? here = some .directory)
      (hNoLink : ∀ target, tree.get? (step.from here) ≠ some (.link target))
      (hRest : Leads tree toTheEnd links (step.from here) rest place) :
      Leads tree toTheEnd links here (step :: rest) place
  /-- The way goes on with the steps of a target, which are looked up where the link lies. -/
  | link {links : Nat} {here place : Location} {step : Step} {rest : List Step} {target : Path}
      (hDirectory : tree.get? here = some .directory)
      (hLink : tree.get? (step.from here) = some (.link target))
      (hOn : rest ≠ [] ∨ toTheEnd = true)
      (hRest : Leads tree toTheEnd links (target.start here) (target.steps ++ rest) place) :
      Leads tree toTheEnd (links + 1) here (step :: rest) place
  /-- A link is what the last step leads to, if links are not followed to the end. -/
  | last {links : Nat} {here : Location} {step : Step} {target : Path}
      (hDirectory : tree.get? here = some .directory)
      (hLink : tree.get? (step.from here) = some (.link target)) (hEnd : toTheEnd = false) :
      Leads tree toTheEnd links here [step] (step.from here)

/-! ## Following paths -/

/-- What is followed with the ways behind links is followed along a way. -/
theorem leads_of_pass {tree : Tree} {toTheEnd : Bool} {links : Nat}
    {jump : Location → List Step → Except SystemError Location}
    (hJump : ∀ here steps place, jump here steps = .ok place →
      ∃ others, links = others + 1 ∧ Leads tree toTheEnd others here steps place)
    {steps : List Step} {here place : Location}
    (h : tree.pass jump toTheEnd here steps = .ok place) :
    Leads tree toTheEnd links here steps place := by
  induction steps generalizing here with
  | nil =>
      rw [pass, Except.ok.injEq] at h
      exact h ▸ .here links here
  | cons step rest ih =>
      rw [pass] at h
      split at h
      · cases h
      · rename_i hDirectory
        split at h
        · rename_i target hLink
          split at h
          · rename_i hLast
            rw [Bool.and_eq_true, List.isEmpty_iff, Bool.not_eq_true'] at hLast
            obtain ⟨rfl, hEnd⟩ := hLast
            obtain rfl := Except.ok.inj h
            exact .last hDirectory hLink hEnd
          · rename_i hLast
            obtain ⟨others, rfl, hRest⟩ := hJump _ _ _ h
            refine .link hDirectory hLink ?_ hRest
            rw [Bool.and_eq_true, not_and, List.isEmpty_iff, Bool.not_eq_true',
              Bool.not_eq_false] at hLast
            exact (Decidable.em (rest = [])).symm.imp_right hLast
        · rename_i hNoLink
          exact .step hDirectory hNoLink (ih h)
      · cases h

theorem leads_of_walk {tree : Tree} {toTheEnd : Bool} {links : Nat} {steps : List Step}
    {here place : Location} (h : tree.walk toTheEnd links here steps = .ok place) :
    Leads tree toTheEnd links here steps place := by
  induction links generalizing here steps place with
  | zero =>
      refine leads_of_pass (fun _ _ _ hJump => ?_) h
      cases hJump
  | succ links ih => exact leads_of_pass (fun _ _ _ hJump => ⟨links, rfl, ih hJump⟩) h

/-- One step is followed alike with all numbers of links, but for what is behind a link. -/
theorem walk_cons {tree : Tree} {here : Location} (hDirectory : tree.get? here = some .directory)
    (toTheEnd : Bool) (links : Nat) {step : Step} (rest : List Step)
    (hNoLink : ∀ target, tree.get? (step.from here) ≠ some (.link target)) :
    tree.walk toTheEnd links here (step :: rest) =
      tree.walk toTheEnd links (step.from here) rest := by
  -- the second alternative for what a step leads to is taken by `hNoLink`
  cases links <;> simp only [walk, pass, hDirectory]

/-- **Steps are followed along their way.** -/
theorem walk_eq_ok_iff {tree : Tree} {toTheEnd : Bool} {links : Nat} {steps : List Step}
    {here place : Location} :
    tree.walk toTheEnd links here steps = .ok place ↔
      Leads tree toTheEnd links here steps place := by
  refine ⟨leads_of_walk, fun h => ?_⟩
  induction h with
  | here links here => cases links <;> rfl
  | step hDirectory hNoLink hRest ih =>
      rw [walk_cons hDirectory toTheEnd _ _ hNoLink]
      exact ih
  | link hDirectory hLink hOn hRest ih =>
      rw [walk, pass, hDirectory]
      simp only [hLink]
      rw [if_neg, ih]
      rw [Bool.and_eq_true, List.isEmpty_iff, Bool.not_eq_true', not_and, Bool.not_eq_false]
      exact fun hNil => hOn.resolve_left fun hNe => hNe hNil
  | @last links here step target hDirectory hLink hEnd =>
      have hPass : ∀ jump, tree.pass jump toTheEnd here [step] = .ok (step.from here) := by
        intro jump
        rw [pass, hDirectory]
        simp only [hLink]
        rw [hEnd]
        rfl
      cases links <;> exact hPass _

/-- A path that leads somewhere is not empty, and its way begins where it does. -/
theorem locate_eq_ok_iff {tree : Tree} {path : Path} {place : Location} :
    tree.locate path = .ok place ↔
      path.isEmpty = false ∧ Leads tree true linkLimit (tree.origin path) path.steps place := by
  rw [locate, ← walk_eq_ok_iff]
  cases path.isEmpty with
  | true => exact ⟨nofun, nofun⟩
  | false => exact (and_iff_right rfl).symm

/-! ## Trees with the same ways -/

/-- The directories of a tree are kept in another one, and the links are the same. -/
structure Kept (before after : Tree) : Prop where
  workingDirectory : after.workingDirectory = before.workingDirectory
  directories : ∀ location, before.get? location = some .directory →
    after.get? location = some .directory
  links : ∀ location target, after.get? location = some (.link target) ↔
    before.get? location = some (.link target)

namespace Kept

variable {first second : Tree}

/-- Directories and links are kept if whatever is there is, and no link is new. -/
theorem of_entries (hWorking : second.workingDirectory = first.workingDirectory)
    (h : ∀ location, second.get? location = first.get? location ∨
      first.get? location = none ∧ ∀ target, second.get? location ≠ some (.link target)) :
    Kept first second where
  workingDirectory := hWorking
  directories location hDirectory := by
    rcases h location with hSame | ⟨hNone, -⟩
    · rw [hSame, hDirectory]
    · cases hNone.symm.trans hDirectory
  links location target := by
    rcases h location with hSame | ⟨hNone, hNew⟩
    · rw [hSame]
    · rw [hNone]
      exact iff_of_false (hNew target) nofun

theorem refl (tree : Tree) : Kept tree tree :=
  ⟨rfl, fun _ h => h, fun _ _ => Iff.rfl⟩

theorem origin (h : Kept first second) (path : Path) : second.origin path = first.origin path := by
  rw [Tree.origin, Tree.origin, h.workingDirectory]

/-- **Ways stay ways.** -/
theorem leads (h : Kept first second) {toTheEnd : Bool} {links : Nat} {steps : List Step}
    {here place : Location} (hLeads : Leads first toTheEnd links here steps place) :
    Leads second toTheEnd links here steps place := by
  induction hLeads with
  | here links here => exact .here links here
  | step hDirectory hNoLink _ ih =>
      exact .step (h.directories _ hDirectory)
        (fun target hLink => hNoLink target ((h.links _ target).mp hLink)) ih
  | link hDirectory hLink hOn _ ih =>
      exact .link (h.directories _ hDirectory) ((h.links _ _).mpr hLink) hOn ih
  | last hDirectory hLink hEnd =>
      exact .last (h.directories _ hDirectory) ((h.links _ _).mpr hLink) hEnd

theorem locate (h : Kept first second) {path : Path} {place : Location}
    (hPlace : first.locate path = .ok place) : second.locate path = .ok place := by
  rw [locate_eq_ok_iff] at hPlace ⊢
  rw [h.origin]
  exact ⟨hPlace.1, h.leads hPlace.2⟩

end Kept

/-! ## Along a way -/

namespace Leads

variable {tree : Tree} {whole : Bool} {links : Nat} {steps : List Step} {here place : Location}

/-- A way that does not end at a link is one on which links are followed to the end. -/
theorem toTheEnd (h : Leads tree whole links here steps place)
    (hPlace : ∀ target, tree.get? place ≠ some (.link target)) :
    Leads tree true links here steps place := by
  induction h with
  | here links here => exact .here links here
  | step hDirectory hNoLink _ ih => exact .step hDirectory hNoLink (ih hPlace)
  | link hDirectory hLink _ _ ih => exact .link hDirectory hLink (.inr rfl) (ih hPlace)
  | last _ hLink => exact absurd hLink (hPlace _)

/-- Steps that lead nowhere can be taken first. -/
theorem stays {front : List Step} (hFront : ∀ step ∈ front, step = .stay)
    (hHere : tree.get? here = some .directory) (h : Leads tree whole links here steps place) :
    Leads tree whole links here (front ++ steps) place := by
  induction front with
  | nil => exact h
  | cons step rest ih =>
      obtain rfl := hFront step List.mem_cons_self
      have hNoLink : ∀ target, tree.get? (Step.stay.from here) ≠ some (.link target) := by
        intro target hLink
        cases hHere.symm.trans hLink
      exact .step hHere hNoLink (ih fun other hMem => hFront other (List.mem_cons_of_mem _ hMem))

/-- Steps with the same moves as others have their first move, and behind it the same
moves. -/
theorem exists_moves_cons {step : Step} (hStep : step ≠ .stay) {rest others : List Step}
    (h : moves (step :: rest) = moves others) :
    ∃ front back, others = front ++ step :: back ∧ (∀ other ∈ front, other = .stay) ∧
      moves rest = moves back := by
  rw [Step.moves_cons hStep, eq_comm, moves, List.filter_eq_cons_iff] at h
  obtain ⟨front, back, rfl, hFront, -, hBack⟩ := h
  exact ⟨front, back, rfl, fun other hMem => by simpa using hFront other hMem, hBack.symm⟩

/-- **A way to a directory is told by its moves.** -/
theorem of_moves (h : Leads tree true links here steps place)
    (hPlace : tree.get? place = some .directory) {others : List Step}
    (hMoves : moves steps = moves others) : Leads tree true links here others place := by
  induction h generalizing others with
  | here links here =>
      have hStays := Step.moves_eq_nil_iff.mp hMoves.symm
      rw [← List.append_nil others]
      exact stays hStays hPlace (.here links here)
  | @step links here place step rest hDirectory hNoLink hRest ih =>
      by_cases hStay : step = .stay
      · subst hStay
        exact ih hPlace hMoves
      · obtain ⟨front, back, rfl, hFront, hBack⟩ := exists_moves_cons hStay hMoves
        exact stays hFront hDirectory (.step hDirectory hNoLink (ih hPlace hBack))
  | @link links here place step rest target hDirectory hLink hOn hRest ih =>
      have hStay : step ≠ .stay := by
        rintro rfl
        cases hDirectory.symm.trans hLink
      obtain ⟨front, back, rfl, hFront, hBack⟩ := exists_moves_cons hStay hMoves
      refine stays hFront hDirectory (.link hDirectory hLink (.inr rfl) (ih hPlace ?_))
      rw [Step.moves_append, Step.moves_append, hBack]
  | last _ _ hEnd => cases hEnd

end Leads

end Tree

end LiveMarkup.Disk
