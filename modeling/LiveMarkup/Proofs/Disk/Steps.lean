import LiveMarkup.Disk.Tree

/-!
# The steps of a path

A path is cut at its slashes into names, and each name is a step. What counts are the
moves, the steps that lead somewhere: a path and its components have the same moves,
and so has a path without the slashes that it ends in.

A path that is put together from components is cut into these components again. So
the directories that a path leads through have the moves of a front of its steps, and
begin where the path does.

## Main results

* `names_eq_splitOn` — names are what the library makes of bytes and a separator.
* `steps_ofComponents` — components are the steps of their path.
* `exists_front_of_mem_ancestors` — **the directories above a path are on its way**.
-/

namespace LiveMarkup.Disk

namespace Step

/-- The steps that lead somewhere. -/
def moves (steps : List Step) : List Step :=
  steps.filter (· ≠ .stay)

theorem moves_append (front back : List Step) :
    moves (front ++ back) = moves front ++ moves back :=
  List.filter_append front back

@[simp] theorem moves_cons_stay (rest : List Step) : moves (.stay :: rest) = moves rest := rfl

theorem moves_cons {step : Step} (h : step ≠ .stay) (rest : List Step) :
    moves (step :: rest) = step :: moves rest :=
  List.filter_cons_of_pos (decide_eq_true h)

theorem moves_eq_nil_iff {steps : List Step} : moves steps = [] ↔ ∀ step ∈ steps, step = .stay := by
  simp [moves, List.filter_eq_nil_iff]

/-- The step is written as a name that stands for it. -/
def Proper (step : Step) : Prop :=
  ofName step.name = step ∧ slash ∉ step.name

/-- What a name without slashes stands for is written properly. -/
theorem proper_ofName {name : Name} (h : slash ∉ name) : (ofName name).Proper := by
  by_cases hStay : name = [] ∨ name = [dot]
  · have hEq : ofName name = .stay := if_pos hStay
    rw [hEq]
    exact ⟨by decide, by decide⟩
  · by_cases hUp : name = [dot, dot]
    · have hEq : ofName name = .up := by
        rw [ofName, if_neg hStay, if_pos hUp]
      rw [hEq]
      exact ⟨by decide, by decide⟩
    · have hName : (ofName name).name = name := by
        rw [ofName, if_neg hStay, if_neg hUp, Step.name]
      unfold Proper
      rw [hName]
      exact ⟨rfl, h⟩

/-- No step is written as nothing. -/
theorem Proper.name_ne_nil {step : Step} (h : step.Proper) : step.name ≠ [] := by
  intro hNil
  have hStay : step = .stay := by
    rw [← h.1, hNil]
    rfl
  rw [hStay] at hNil
  exact absurd hNil (by decide)

end Step

open Step (moves)

namespace Path

/-- **Names are the parts between the slashes**, as the library cuts a list. -/
theorem names_eq_splitOn (bytes : List UInt8) : names bytes = bytes.splitOn slash := by
  induction bytes with
  | nil => rfl
  | cons b rest ih =>
      rw [names, List.splitOn_cons_eq_if_modifyHead, ih]
      by_cases hSlash : b = slash
      · rw [if_pos hSlash, if_pos (beq_iff_eq.mpr hSlash)]
      · rw [if_neg hSlash, if_neg (fun h => hSlash (beq_iff_eq.mp h))]
        cases hNames : rest.splitOn slash with
        | nil => exact absurd hNames (List.splitOn_ne_nil slash rest)
        | cons name more => rfl

theorem slash_not_mem_of_mem_names {bytes : List UInt8} {name : Name} (h : name ∈ names bytes) :
    slash ∉ name := by
  induction bytes generalizing name with
  | nil =>
      rw [names, List.mem_singleton] at h
      rw [h]
      exact List.not_mem_nil
  | cons b rest ih =>
      rw [names] at h
      by_cases hSlash : b = slash
      · rw [if_pos hSlash] at h
        rcases List.mem_cons.mp h with rfl | hRest
        · exact List.not_mem_nil
        · exact ih hRest
      · rw [if_neg hSlash] at h
        cases hNames : names rest with
        | nil =>
            rw [hNames] at h
            rw [List.mem_singleton.mp h, List.mem_singleton]
            exact Ne.symm hSlash
        | cons first more =>
            rw [hNames] at h
            rcases List.mem_cons.mp h with rfl | hRest
            · intro hMem
              rcases List.mem_cons.mp hMem with hHere | hFirst
              · exact hSlash hHere.symm
              · exact ih (by rw [hNames]; exact List.mem_cons_self) hFirst
            · exact ih (by rw [hNames]; exact List.mem_cons_of_mem first hRest)

theorem steps_ne_nil (path : Path) : steps path ≠ [] := by
  unfold steps
  rw [names_eq_splitOn]
  simp

/-- The steps of a path are written properly. -/
theorem proper_of_mem_steps {path : Path} {step : Step} (h : step ∈ steps path) :
    step.Proper := by
  obtain ⟨name, hName, rfl⟩ := List.mem_map.mp h
  exact Step.proper_ofName (slash_not_mem_of_mem_names hName)

theorem mem_steps_of_mem_components {path : Path} {step : Step} (h : step ∈ components path) :
    step ∈ steps path := by
  unfold components at h
  simp only at h
  split at h
  · rename_i hDot
    rcases List.mem_cons.mp h with rfl | hKept
    · exact List.mem_of_mem_head? hDot.2
    · exact (List.mem_filter.mp hKept).1
  · exact (List.mem_filter.mp h).1

/-! ## Slashes at the end -/

theorem splitOn_slashes {slashes : List UInt8} (h : ∀ b ∈ slashes, b = slash) :
    ∀ name ∈ slashes.splitOn slash, name = [] := by
  induction slashes with
  | nil => simp
  | cons b rest ih =>
      obtain rfl : b = slash := h b List.mem_cons_self
      rw [List.splitOn_cons_eq_if_modifyHead, if_pos (by decide)]
      intro name hMem
      rcases List.mem_cons.mp hMem with rfl | hRest
      · rfl
      · exact ih (fun other hOther => h other (List.mem_cons_of_mem _ hOther)) name hRest

/-- Slashes at the end of a path lead nowhere. -/
theorem moves_splitOn_slashes (bytes : List UInt8) {slashes : List UInt8}
    (h : ∀ b ∈ slashes, b = slash) :
    moves (((bytes ++ slashes).splitOn slash).map Step.ofName) =
      moves ((bytes.splitOn slash).map Step.ofName) := by
  cases slashes with
  | nil => rw [List.append_nil]
  | cons b rest =>
      obtain rfl : b = slash := h b List.mem_cons_self
      have hStay : moves ((rest.splitOn slash).map Step.ofName) = [] := by
        rw [Step.moves_eq_nil_iff]
        intro step hStep
        obtain ⟨name, hName, rfl⟩ := List.mem_map.mp hStep
        have hEmpty : name = [] :=
          splitOn_slashes (fun other hOther => h other (List.mem_cons_of_mem _ hOther)) name hName
        rw [hEmpty]
        rfl
      rw [List.splitOn_append_cons_self, List.map_append, Step.moves_append, hStay, List.append_nil]

/-- A directory that is to be created is where its path leads. -/
theorem moves_stepsToCreate (path : Path) :
    moves (Tree.stepsToCreate path) = moves path.steps := by
  let slashes := (path.bytes.reverse.takeWhile (· = slash)).reverse
  have hSlashes : ∀ b ∈ slashes, b = slash := by
    intro b hMem
    have hTaken := List.all_eq_true.mp List.all_takeWhile b (List.mem_reverse.mp hMem)
    exact of_decide_eq_true hTaken
  have hPath : path.bytes = (path.bytes.reverse.dropWhile (· = slash)).reverse ++ slashes := by
    rw [← List.reverse_append, List.takeWhile_append_dropWhile, List.reverse_reverse]
  have hSteps : path.steps = (((path.bytes.reverse.dropWhile (· = slash)).reverse ++
      slashes).splitOn slash).map Step.ofName := by
    rw [← hPath, steps, names_eq_splitOn]
  rw [hSteps, Tree.stepsToCreate, steps, names_eq_splitOn]
  exact (moves_splitOn_slashes _ hSlashes).symm

/-! ## Paths of components -/

/-- **Components are the steps of their path**, behind the one that an absolute path
begins with. -/
theorem steps_ofComponents (absolute : Bool) {components : List Step} (hNe : components ≠ [])
    (hProper : ∀ step ∈ components, step.Proper) :
    steps (ofComponents absolute components) =
      (if absolute then [.stay] else []) ++ components := by
  have hSplit : ([slash].intercalate (components.map Step.name)).splitOn slash =
      components.map Step.name := by
    apply List.splitOn_intercalate
    · intro name hMem
      obtain ⟨step, hStep, rfl⟩ := List.mem_map.mp hMem
      exact (hProper step hStep).2
    · exact fun hNil => hNe (List.map_eq_nil_iff.mp hNil)
  have hSteps : (components.map Step.name).map Step.ofName = components := by
    rw [List.map_map]
    calc components.map (Step.ofName ∘ Step.name)
        = components.map id := List.map_congr_left fun step hStep => (hProper step hStep).1
      _ = components := List.map_id components
  rw [steps, names_eq_splitOn, ofComponents]
  cases absolute with
  | false =>
      show List.map Step.ofName (List.splitOn slash (List.intercalate _ _)) = components
      rw [hSplit, hSteps]
  | true =>
      show List.map Step.ofName (List.splitOn slash (slash :: List.intercalate _ _)) =
        .stay :: components
      rw [List.splitOn_cons_eq_if_modifyHead, if_pos (by decide), hSplit, List.map_cons, hSteps]
      rfl

theorem isAbsolute_ofComponents (absolute : Bool) {components : List Step}
    (hNe : components ≠ []) (hProper : ∀ step ∈ components, step.Proper) :
    isAbsolute (ofComponents absolute components) = absolute := by
  rw [isAbsolute, ofComponents]
  cases absolute with
  | true => rfl
  | false =>
      cases components with
      | nil => exact absurd rfl hNe
      | cons first rest =>
          have hFirst := hProper first List.mem_cons_self
          cases hName : first.name with
          | nil => exact absurd hName hFirst.name_ne_nil
          | cons b more =>
              have hSlash : b ≠ slash := by
                intro hEq
                apply hFirst.2
                rw [hName, hEq]
                exact List.mem_cons_self
              cases rest with
              | nil => simp [hName, hSlash]
              | cons second others => simp [hName, hSlash]

/-! ## Directories on the way -/

theorem exists_front_of_mem_passing {absolute : Bool} {directory : Path} (rest : List Step) :
    ∀ passed : List Step, directory ∈ passing absolute passed rest →
      ∃ front, front ≠ [] ∧ front <+: passed ++ rest ∧ directory = ofComponents absolute front := by
  induction rest with
  | nil =>
      intro passed h
      cases h
  | cons step rest ih =>
      intro passed h
      cases rest with
      | nil => cases h
      | cons next others =>
          rw [passing, List.mem_append, List.mem_singleton] at h
          · rcases h with hBehind | rfl
            · have hFront := ih (passed ++ [step]) hBehind
              rwa [List.append_assoc] at hFront
            · refine ⟨passed ++ [step], by simp, ?_, rfl⟩
              exact List.prefix_append_right_inj passed |>.mpr
                (List.cons_prefix_cons.mpr ⟨rfl, List.nil_prefix⟩)
          · simp

/-- Components in a row from the first one on have the moves of a front of the steps. -/
theorem exists_front_of_components {path : Path} {front : List Step}
    (h : front <+: components path) :
    ∃ passed, passed <+: steps path ∧ moves passed = moves front := by
  have hKept : ∀ kept, kept <+: moves (steps path) →
      ∃ passed, passed <+: steps path ∧ moves passed = moves kept := by
    intro kept hPrefix
    obtain ⟨passed, hPassed, rfl⟩ := List.prefix_filter_iff.mp hPrefix
    exact ⟨passed, hPassed, (List.filter_filter.trans (by simp [moves])).symm⟩
  unfold components at h
  simp only at h
  split at h
  · cases front with
    | nil => exact ⟨[], List.nil_prefix, rfl⟩
    | cons first kept =>
        obtain ⟨rfl, hRest⟩ := List.cons_prefix_cons.mp h
        exact hKept kept hRest
  · exact hKept front h

/-- **The directories above a path are on its way**: they begin where it does, and make
the moves of a front of its steps. -/
theorem exists_front_of_mem_ancestors {path directory : Path} (h : directory ∈ ancestors path) :
    directory.isAbsolute = path.isAbsolute ∧
      ∃ passed, passed <+: steps path ∧ moves passed = moves (steps directory) := by
  obtain ⟨front, hNe, hFront, rfl⟩ := exists_front_of_mem_passing _ _ h
  rw [List.nil_append] at hFront
  have hProper : ∀ step ∈ front, step.Proper := fun step hMem =>
    proper_of_mem_steps (mem_steps_of_mem_components (hFront.subset hMem))
  refine ⟨isAbsolute_ofComponents _ hNe hProper, ?_⟩
  obtain ⟨passed, hPassed, hMoves⟩ := exists_front_of_components hFront
  refine ⟨passed, hPassed, hMoves.trans ?_⟩
  rw [steps_ofComponents _ hNe hProper]
  split <;> rfl

end Path

end LiveMarkup.Disk
