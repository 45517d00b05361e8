import LiveMarkup.Proofs.Live.Isolation

/-!
# The positions of a tree in pre-order

`VirtualTree.positions` lists the positions of a tree, a node before what is below
it and a child before the ones behind it. So a quantity that a pass gathers node
by node is a sum over such a list, and the order in which it visits the nodes is
the order of the list.

`VirtualTree.shared` are the positions that two trees have with the same tags on
the way to them, and `VirtualTree.dropped` those where the old tree is left: its
other positions all lie below one of these.

## Main results

* `mem_positions`, `nodup_positions`, `length_positions` — the positions of a tree
  are listed, each once.
* `mem_shared` — the shared positions are those with equal tags.
-/

namespace LiveMarkup

variable {H : Type}

namespace VirtualTree

/-! ## Positions -/

/-- A position in a row of trees that has got one more tree in front. -/
def behind : List Nat → List Nat
  | [] => []
  | index :: path => (index + 1) :: path

mutual

/-- The positions of a tree in pre-order. -/
def positions : VirtualTree H → List (List Nat)
  | node _ _ children => [] :: positionsAll children

/-- The positions of trees in a row, each with the place of its tree in front. -/
def positionsAll : List (VirtualTree H) → List (List Nat)
  | [] => []
  | tree :: rest => tree.positions.map (0 :: ·) ++ (positionsAll rest).map behind

end

theorem positions_eq (tree : VirtualTree H) :
    tree.positions = [] :: positionsAll tree.children := by
  cases tree
  rfl

/-- The subtree at a position in a row of trees. -/
def rowAt? : List Nat → List (VirtualTree H) → Option (VirtualTree H)
  | [], _ => none
  | index :: path, trees => trees[index]?.bind (at? path)

@[simp] theorem rowAt?_behind (path : List Nat) (tree : VirtualTree H)
    (rest : List (VirtualTree H)) : rowAt? (behind path) (tree :: rest) = rowAt? path rest := by
  cases path <;> rfl

theorem behind_injective : Function.Injective behind
  | [], [], _ => rfl
  | [], _ :: _, h => by cases h
  | _ :: _, [], h => by cases h
  | _ :: _, _ :: _, h => by
      rw [behind, behind, List.cons.injEq, Nat.add_right_cancel_iff] at h
      rw [h.1, h.2]

theorem behind_ne_first (above path : List Nat) : behind above ≠ 0 :: path := by
  cases above <;> simp [behind]

mutual

/-- **The positions of a tree are listed**, and nothing else. -/
theorem mem_positions : (tree : VirtualTree H) → (path : List Nat) →
    (path ∈ tree.positions ↔ (tree.at? path).isSome = true)
  | node tag properties trees, [] => by simp [positions, at?]
  | node tag properties trees, index :: path => by
      have hRow := mem_positionsAll trees (index :: path)
      rw [positions, List.mem_cons, at?, children]
      simpa [rowAt?] using hRow

theorem mem_positionsAll : (trees : List (VirtualTree H)) → (path : List Nat) →
    (path ∈ positionsAll trees ↔ (rowAt? path trees).isSome = true)
  | [], path => by cases path <;> simp [positionsAll, rowAt?]
  | tree :: rest, [] => by
      rw [positionsAll, List.mem_append, show ([] : List Nat) = behind [] from rfl,
        List.mem_map_of_injective behind_injective, mem_positionsAll rest []]
      simp [rowAt?, behind]
  | tree :: rest, 0 :: path => by
      have hNot : 0 :: path ∉ (positionsAll rest).map behind := by
        intro hMem
        obtain ⟨above, -, hBehind⟩ := List.mem_map.mp hMem
        exact behind_ne_first above path hBehind
      rw [positionsAll, List.mem_append, or_iff_left hNot,
        List.mem_map_of_injective (List.cons_injective), mem_positions tree path]
      rfl
  | tree :: rest, (index + 1) :: path => by
      rw [positionsAll, List.mem_append, show (index + 1) :: path = behind (index :: path) from rfl,
        List.mem_map_of_injective behind_injective, rowAt?_behind,
        mem_positionsAll rest (index :: path)]
      simp [behind]

end

mutual

/-- Each position is listed once. -/
theorem nodup_positions : (tree : VirtualTree H) → tree.positions.Nodup
  | node tag properties trees => by
      rw [positions, List.nodup_cons, mem_positionsAll]
      exact ⟨by simp [rowAt?], nodup_positionsAll trees⟩

theorem nodup_positionsAll : (trees : List (VirtualTree H)) → (positionsAll trees).Nodup
  | [] => List.nodup_nil
  | tree :: rest => by
      rw [positionsAll, List.nodup_append]
      refine ⟨(nodup_positions tree).map List.cons_injective,
        (nodup_positionsAll rest).map behind_injective, ?_⟩
      rintro path hFirst _ hRest rfl
      obtain ⟨below, -, rfl⟩ := List.mem_map.mp hFirst
      obtain ⟨above, -, hBehind⟩ := List.mem_map.mp hRest
      exact behind_ne_first above below hBehind

end

mutual

/-- There are as many as the tree has nodes. -/
theorem length_positions : (tree : VirtualTree H) → tree.positions.length = tree.count
  | node tag properties trees => by
      rw [positions, List.length_cons, count, length_positionsAll trees, Nat.add_comm]

theorem length_positionsAll :
    (trees : List (VirtualTree H)) → (positionsAll trees).length = countAll trees
  | [] => rfl
  | tree :: rest => by
      rw [positionsAll, List.length_append, List.length_map, List.length_map, countAll,
        length_positions tree, length_positionsAll rest]

end

/-! ## Positions that two trees have -/

/-- The trees below the node at a position. -/
def childrenAt (path : List Nat) (tree : VirtualTree H) : List (VirtualTree H) :=
  ((tree.at? path).map children).getD []

/-- The positions that two trees have with the same tags on the way to them. -/
def shared (old new : VirtualTree H) : List (List Nat) :=
  old.positions.filter fun path => old.tagsTo path = new.tagsTo path

theorem mem_shared {old new : VirtualTree H} {path : List Nat} : path ∈ shared old new ↔
    ∃ tags, old.tagsTo path = some tags ∧ new.tagsTo path = some tags := by
  rw [shared, List.mem_filter, mem_positions, ← isSome_tagsTo, decide_eq_true_iff,
    Option.isSome_iff_exists]
  constructor
  · rintro ⟨⟨tags, hOld⟩, hTags⟩
    exact ⟨tags, hOld, hTags ▸ hOld⟩
  · rintro ⟨tags, hOld, hNew⟩
    exact ⟨⟨tags, hOld⟩, hOld.trans hNew.symm⟩

theorem nil_mem_shared {old new : VirtualTree H} : [] ∈ shared old new ↔ old.tag = new.tag := by
  simp [mem_shared, tagsTo, eq_comm]

/-- Nothing is shared below another tag. -/
theorem not_mem_shared_of_ne {old new : VirtualTree H} (hTag : old.tag ≠ new.tag)
    (path : List Nat) : path ∉ shared old new := by
  rw [mem_shared]
  rintro ⟨tags, hOld, hNew⟩
  refine hTag ?_
  cases path with
  | nil =>
      simp only [tagsTo, Option.some.injEq] at hOld hNew
      simpa using hOld.trans hNew.symm
  | cons index path =>
      obtain ⟨above, -, rfl⟩ := Option.map_eq_some_iff.mp hOld
      obtain ⟨above', -, hCons⟩ := Option.map_eq_some_iff.mp hNew
      exact (List.cons.inj hCons).1.symm

/-- Below the same tag the positions are shared that two children share. -/
theorem cons_mem_shared {old new child : VirtualTree H} {index : Nat} {path : List Nat}
    (hTag : old.tag = new.tag) (hOld : old.children[index]? = some child) :
    index :: path ∈ shared old new ↔ ∃ now, new.children[index]? = some now ∧
      path ∈ shared child now := by
  simp only [mem_shared, tagsTo, hOld, hTag, Option.bind_some, Option.map_eq_some_iff,
    Option.bind_eq_some_iff]
  constructor
  · rintro ⟨-, ⟨tags, hOld, rfl⟩, ⟨tags', ⟨now, hNow, hNew⟩, hCons⟩⟩
    exact ⟨now, hNow, tags, hOld, (List.cons.inj hCons).2 ▸ hNew⟩
  · rintro ⟨now, hNow, tags, hOld, hNew⟩
    exact ⟨_, ⟨tags, hOld, rfl⟩, ⟨tags, ⟨now, hNow, hNew⟩, rfl⟩⟩

/-- The positions of the old tree that are not shared, although what they hang
below is: the root, or a child of a shared position. -/
def dropped (old new : VirtualTree H) : List (List Nat) :=
  old.positions.filter fun path =>
    path ∉ shared old new ∧ (path = [] ∨ path.dropLast ∈ shared old new)

theorem childrenAt_cons {tree child : VirtualTree H} {index : Nat}
    (hChild : tree.children[index]? = some child) (path : List Nat) :
    childrenAt (index :: path) tree = childrenAt path child := by
  rw [childrenAt, at?, hChild, Option.bind_some, childrenAt]

end VirtualTree

end LiveMarkup
