import LiveMarkup.Proofs.Live.Remount
import LiveMarkup.Proofs.Live.Tidy

/-!
# One pass over a live tree

A pass may find a live tree that has lost children at the end of some lists, a
live tree without the virtual tree that it was built from, or none at all, and
it may be asked for no tree. `LiveTree.brought` is the live tree that stands
there afterwards, in each of these cases.

`Keeps` says which nodes a pass keeps, and `Healed` what the arena looks like
when the pass is over. Both speak of handles and positions alone.

## Main results

* `at?_brought_of_keeps`, `at?_brought_of_not_keeps` — a position keeps its node
  or gets a fresh one.
* `redrawn_reconcile` — a pass shows the live tree that it brings about, and
  touches nothing but the old one.
* `healed_reconcile` — **one pass reaches the new shape**, keeps what it may and
  replaces what is missing.
-/

namespace LiveMarkup.Live

open LiveTree (root mount nodes nodesAll idsAll)

variable {H : Type}

/-! ## Positions and handles -/

namespace LiveTree

@[simp] theorem nodesAll_singleton (tree : LiveTree H) : nodesAll [tree] = tree.nodes := by
  rw [nodesAll, nodesAll, List.append_nil]

@[simp] theorem idsAll_singleton (tree : LiveTree H) : idsAll [tree] = tree.ids := by
  rw [idsAll_cons, idsAll_nil, List.append_nil]

mutual

/-- Every handle of a live tree stands at a position. -/
theorem exists_at?_of_mem_ids : (live : LiveTree H) → (id : Handle) → id ∈ live.ids →
    ∃ path found, live.at? path = some found ∧ found.root = id
  | node top tag properties handlers children, id, hMem => by
      rw [ids_node, List.mem_cons] at hMem
      rcases hMem with rfl | hMem
      · exact ⟨[], _, rfl, rfl⟩
      · obtain ⟨index, path, found, hFound, hRoot⟩ :=
          exists_at?_of_mem_idsAll children id hMem
        exact ⟨index :: path, found, hFound, hRoot⟩

theorem exists_at?_of_mem_idsAll : (lives : List (LiveTree H)) → (id : Handle) →
    id ∈ idsAll lives →
    ∃ (index : Nat) (path : List Nat) (found : LiveTree H),
      lives[index]?.bind (at? path) = some found ∧ found.root = id
  | [], _, hMem => by cases hMem
  | live :: lives, id, hMem => by
      rw [idsAll_cons, List.mem_append] at hMem
      rcases hMem with hMem | hMem
      · obtain ⟨path, found, hFound, hRoot⟩ := exists_at?_of_mem_ids live id hMem
        exact ⟨0, path, found, hFound, hRoot⟩
      · obtain ⟨index, path, found, hFound, hRoot⟩ :=
          exists_at?_of_mem_idsAll lives id hMem
        exact ⟨index + 1, path, found, hFound, hRoot⟩

end

end LiveTree

/-- The positions below the root of a live tree hold the handles that the value
has there, and no others. -/
theorem Arena.at?_eq_of_holds {arena : Arena H} (path : List Nat) {live : LiveTree H}
    (hHolds : arena.Holds live.nodes) :
    arena.at? path live.root = (live.at? path).map root := by
  induction path generalizing live with
  | nil => rfl
  | cons index path ih =>
      obtain ⟨hNode, hChildren⟩ := holds_iff.mp hHolds
      have hChildAt : arena.childAt? live.root index = live.children[index]?.map root := by
        rw [childAt?, children, hNode]
        simp [LiveTree.held]
      rw [at?, LiveTree.at?, hChildAt]
      cases hChild : live.children[index]? with
      | none => rfl
      | some child => exact ih (holds_child hChildren hChild)

/-! ## The live tree that a pass brings about -/

/-- The two trees, if there are two, have a position with the same tags on the way
to it. -/
def SameTags (old new : Option (VirtualTree H)) (path : List Nat) : Prop :=
  ∃ tags, old.bind (VirtualTree.tagsTo path) = some tags ∧
    new.bind (VirtualTree.tagsTo path) = some tags

namespace LiveTree

/-- The live tree that stands there after a pass, when `next` handles have been
given out before. -/
def brought (next : Nat) (live : Option (LiveTree H)) (old : Option (VirtualTree H)) :
    Option (VirtualTree H) → Option (LiveTree H)
  | none => none
  | some new =>
    match live, old with
    | some live, some old => some (meet next live old new).tree
    | _, _ => some (mount next new)

variable (next : Nat) {live : Option (LiveTree H)} {old : Option (VirtualTree H)}

/-- The live tree has the shape of the new virtual tree. -/
theorem shape_brought (new : Option (VirtualTree H))
    (hFollows : ∀ tree ∈ live, ∀ before ∈ old, tree.Follows before) :
    (brought next live old new).map shape = new.map VirtualTree.shape := by
  cases new with
  | none => rfl
  | some new =>
      cases live with
      | none => exact congrArg some (shape_mount new next)
      | some live =>
          cases old with
          | none => exact congrArg some (shape_mount new next)
          | some old =>
              exact congrArg some (shape_meet new next live old (hFollows live rfl old rfl))

/-- No handle stands in two places. -/
theorem nodup_brought (new : Option (VirtualTree H)) (hNodup : ∀ tree ∈ live, tree.ids.Nodup)
    (hOld : ∀ tree ∈ live, Old next tree.ids) :
    ∀ tree ∈ brought next live old new, tree.ids.Nodup := by
  intro tree hTree
  cases new with
  | none => cases hTree
  | some new =>
      cases live with
      | none =>
          cases hTree
          exact nodup_ids_mount new next
      | some live =>
          cases old with
          | none =>
              cases hTree
              exact nodup_ids_mount new next
          | some old =>
              cases hTree
              exact nodup_ids_meet new next live old (hNodup live rfl) (hOld live rfl)

variable {new : Option (VirtualTree H)}

/-- **A position keeps its node** if it has one and the tags are the same. -/
theorem at?_brought_of_keeps {path : List Nat} {before : LiveTree H}
    (hBefore : live.bind (at? path) = some before) (hTags : SameTags old new path) :
    ∃ after, (brought next live old new).bind (at? path) = some after ∧
      after.root = before.root := by
  obtain ⟨tags, hOld, hNew⟩ := hTags
  obtain ⟨live, rfl, hLive⟩ := Option.bind_eq_some_iff.mp hBefore
  obtain ⟨old, rfl, hOldTags⟩ := Option.bind_eq_some_iff.mp hOld
  obtain ⟨new, rfl, hNewTags⟩ := Option.bind_eq_some_iff.mp hNew
  obtain ⟨here, hHere⟩ : ∃ here, new.at? path = some here := by
    rw [← Option.isSome_iff_exists, ← VirtualTree.isSome_tagsTo, hNewTags]
    rfl
  obtain ⟨after, hAfter, hRoot, -, -⟩ :=
    at?_meet_of_eq path new next live old hHere hLive (hOldTags.trans hNewTags.symm)
  exact ⟨after, hAfter, hRoot⟩

/-- **A position gets a fresh node** if it has none or the tags are others. -/
theorem at?_brought_of_not_keeps {path : List Nat} {here : VirtualTree H}
    (hHere : new.bind (VirtualTree.at? path) = some here)
    (hNot : live.bind (at? path) = none ∨ ¬ SameTags old new path) :
    ∃ start, next ≤ start ∧
      (brought next live old new).bind (at? path) = some (mount start here) := by
  obtain ⟨new, rfl, hNew⟩ := Option.bind_eq_some_iff.mp hHere
  obtain ⟨start, hStart, -, hMount⟩ := at?_mount path new next hNew
  cases live with
  | none => exact ⟨start, hStart, hMount⟩
  | some live =>
      cases old with
      | none => exact ⟨start, hStart, hMount⟩
      | some old =>
          obtain ⟨tags, hTags⟩ : ∃ tags, new.tagsTo path = some tags := by
            rw [← Option.isSome_iff_exists, VirtualTree.isSome_tagsTo, hNew]
            rfl
          have hOther : live.at? path = none ∨ old.tagsTo path ≠ new.tagsTo path :=
            hNot.imp id fun hNot hEq => hNot ⟨tags, hEq.trans hTags, hTags⟩
          obtain ⟨start, hStart, -, hMeet⟩ := at?_meet_of_ne path new next live old hNew hOther
          exact ⟨start, hStart, hMeet⟩

/-- A handle that is found after a pass was kept or is a fresh one. -/
theorem mem_ids_brought (hFollows : ∀ tree ∈ live, ∀ before ∈ old, tree.Follows before)
    {after : LiveTree H} (hAfter : brought next live old new = some after) {id : Handle}
    (hMem : id ∈ after.ids) :
    (∃ path before, live.bind (at? path) = some before ∧ SameTags old new path ∧
      before.root = id) ∨ ∃ start, next ≤ start ∧ id = .node start := by
  obtain ⟨path, found, hFound, rfl⟩ := exists_at?_of_mem_ids after id hMem
  have hShape := shape_brought next new hFollows
  rw [hAfter, Option.map_some, eq_comm, Option.map_eq_some_iff] at hShape
  obtain ⟨new, rfl, hShape⟩ := hShape
  obtain ⟨here, hAt⟩ := exists_at?_of_shape path after new hShape.symm hFound
  have hHere : (some new).bind (VirtualTree.at? path) = some here := hAt
  by_cases hKept : live.bind (at? path) = none ∨ ¬ SameTags old (some new) path
  · obtain ⟨start, hStart, hMount⟩ := at?_brought_of_not_keeps next hHere hKept
    rw [hAfter, Option.bind_some, hFound, Option.some.injEq] at hMount
    exact .inr ⟨start, hStart, by rw [hMount, root_mount]⟩
  · rw [not_or, not_not] at hKept
    obtain ⟨before, hBefore⟩ := Option.ne_none_iff_exists'.mp hKept.1
    obtain ⟨other, hOther, hRoot⟩ := at?_brought_of_keeps next hBefore hKept.2
    rw [hAfter, Option.bind_some, hFound, Option.some.injEq] at hOther
    exact .inl ⟨path, before, hBefore, hKept.2, by rw [hOther, hRoot]⟩

end LiveTree

/-! ## The pass -/

namespace Pass

/-- Disposing of a live tree, if there is one, takes its nodes out. -/
theorem redrawn_disposeIfLive (pass : Pass H) (live : Option (LiveTree H))
    (hHolds : ∀ tree ∈ live, pass.arena.Holds tree.nodes) (hNodup : ∀ tree ∈ live, tree.ids.Nodup) :
    ∃ made, pass.arena.Redrawn (pass.disposeIfLive (live.map root)).arena (idsAll live.toList) [] 0
      made := by
  cases live with
  | none => exact ⟨_, .refl pass.arena⟩
  | some tree =>
      have hGone := (turned_dispose pass tree (hHolds tree rfl) (hNodup tree rfl)).arena
      rw [Option.toList_some, LiveTree.idsAll_singleton]
      exact ⟨_, hGone⟩

/-- A tree that is mounted where the old one, if there was one, has been disposed of. -/
theorem redrawn_create_disposed (pass : Pass H) (live : Option (LiveTree H)) (new : VirtualTree H)
    (hHolds : ∀ tree ∈ live, pass.arena.Holds tree.nodes) (hNodup : ∀ tree ∈ live, tree.ids.Nodup) :
    (create (pass.disposeIfLive (live.map root)) new).1 =
        (mount pass.arena.slots.length new).root ∧
      ∃ fresh made, pass.arena.Redrawn (create (pass.disposeIfLive (live.map root)) new).2.arena
        (idsAll live.toList) (mount pass.arena.slots.length new).nodes fresh made := by
  obtain ⟨made, hGone⟩ := redrawn_disposeIfLive pass live hHolds hNodup
  obtain ⟨hRoot, hMade⟩ := turned_create new (pass.disposeIfLive (live.map root))
  rw [hGone.length, Nat.add_zero] at hRoot hMade
  have hBoth := hGone.append hMade.arena (by simp) (by simp)
  rw [List.append_nil, List.nil_append] at hBoth
  exact ⟨hRoot.trans (LiveTree.root_mount new _).symm, _, _, hBoth⟩

/-- **A pass shows the live tree that it brings about**, and touches nothing but
the old one. -/
theorem redrawn_reconcile (pass : Pass H) (live : Option (LiveTree H))
    (old new : Option (VirtualTree H)) (hHolds : ∀ tree ∈ live, pass.arena.Holds tree.nodes)
    (hNodup : ∀ tree ∈ live, tree.ids.Nodup)
    (hFollows : ∀ tree ∈ live, ∀ before ∈ old, tree.Follows before) :
    (pass.reconcile (live.map root) old new).1 =
        (LiveTree.brought pass.arena.slots.length live old new).map root ∧
      ∃ fresh made, pass.arena.Redrawn (pass.reconcile (live.map root) old new).2.arena
        (idsAll live.toList)
        (nodesAll (LiveTree.brought pass.arena.slots.length live old new).toList) fresh made := by
  cases new with
  | none =>
      obtain ⟨made, hGone⟩ := redrawn_disposeIfLive pass live hHolds hNodup
      have hReconcile : pass.reconcile (live.map root) old none =
          (none, pass.disposeIfLive (live.map root)) := by
        cases old <;> rfl
      rw [hReconcile]
      exact ⟨rfl, _, made, hGone⟩
  | some new =>
      -- Only where all three are there the trees are compared.
      obtain ⟨hRoot, fresh, made, hRedrawn⟩ := redrawn_create_disposed pass live new hHolds hNodup
      rw [← LiveTree.nodesAll_singleton] at hRedrawn
      cases live with
      | none =>
          have hReconcile : pass.reconcile none old (some new) =
              (some (create pass new).1, (create pass new).2) := by
            cases old with
            | none => rfl
            | some old => rw [reconcile, meet_none]
          rw [Option.map_none, hReconcile]
          exact ⟨congrArg some hRoot, fresh, made, hRedrawn⟩
      | some live =>
          cases old with
          | none => exact ⟨congrArg some hRoot, fresh, made, hRedrawn⟩
          | some old =>
              obtain ⟨hRoot, hTurned⟩ := turned_meet new pass live old (hHolds live rfl)
                (hNodup live rfl) (hFollows live rfl old rfl)
              have hArena := hTurned.arena
              rw [← LiveTree.idsAll_singleton, ← LiveTree.nodesAll_singleton] at hArena
              exact ⟨congrArg some hRoot, _, _, hArena⟩

end Pass

/-! ## What is to be seen of it -/

/-- A pass keeps the node at a position if there is one, and the two trees have
the position with the same tags on the way to it. -/
def Keeps (arena : Arena H) (live : Option Handle) (old new : Option (VirtualTree H))
    (path : List Nat) : Prop :=
  (live.bind (arena.at? path)).isSome = true ∧ SameTags old new path

/-- What a pass over the live tree `live` leaves of the arena `before`, where
`old` is the virtual tree that this was built from, `new` the one that is asked
for and `result` the live root that is answered. -/
structure Healed (before after : Arena H) (live result : Option Handle)
    (old new : Option (VirtualTree H)) : Prop where
  /-- There is a live root if a tree is asked for, and only then. -/
  present : result.isSome = new.isSome
  /-- It has the shape that is asked for. -/
  shape : result.bind after.shape? = new.map VirtualTree.shape
  /-- A position has the node that it had if the pass keeps it, and only then. -/
  kept : ∀ path here, new.bind (VirtualTree.at? path) = some here →
    (result.bind (after.at? path) = live.bind (before.at? path) ↔ Keeps before live old new path)
  /-- The other positions have nodes that were not in the arena before. -/
  fresh : ∀ path here, new.bind (VirtualTree.at? path) = some here →
    ¬ Keeps before live old new path →
    ∃ id, result.bind (after.at? path) = some id ∧ before.node? id = none ∧
      (after.node? id).isSome = true
  /-- The nodes of the old live tree that are not kept are gone. -/
  gone : ∀ root ∈ live, ∀ id, before.Below root id →
    (∀ path, Keeps before live old new path → live.bind (before.at? path) ≠ some id) →
    after.node? id = none
  /-- The nodes outside of the old live tree are unchanged. -/
  apart : ∀ id, (before.node? id).isSome = true → (∀ root ∈ live, ¬ before.Below root id) →
    after.node? id = before.node? id

section Healed

variable {before after : Arena H} {live : Option (LiveTree H)} {old new : Option (VirtualTree H)}
  {path : List Nat} {fresh : Nat} {made : List (Call H)}

theorem at?_root_of_holds (hHolds : ∀ tree ∈ live, before.Holds tree.nodes) (path : List Nat) :
    (live.map root).bind (before.at? path) = (live.bind (LiveTree.at? path)).map root := by
  cases live with
  | none => rfl
  | some tree => exact Arena.at?_eq_of_holds path (hHolds tree rfl)

theorem holds_of_redrawn {tree : Option (LiveTree H)} {gone : List Handle}
    (hRedrawn : before.Redrawn after gone (nodesAll tree.toList) fresh made) :
    ∀ live ∈ tree, after.Holds live.nodes := by
  intro live hLive
  obtain rfl : tree = some live := hLive
  rw [← LiveTree.nodesAll_singleton]
  exact hRedrawn.shows

theorem keeps_iff (hHolds : ∀ tree ∈ live, before.Holds tree.nodes) :
    Keeps before (live.map root) old new path ↔
      (live.bind (LiveTree.at? path)).isSome = true ∧ SameTags old new path := by
  rw [Keeps, at?_root_of_holds hHolds, Option.isSome_map]

/-- What is not kept was not there, or has other tags now. -/
theorem not_keeps (hHolds : ∀ tree ∈ live, before.Holds tree.nodes)
    (hNot : ¬ Keeps before (live.map root) old new path) :
    live.bind (LiveTree.at? path) = none ∨ ¬ SameTags old new path := by
  rw [keeps_iff hHolds, not_and_or, Option.not_isSome_iff_eq_none] at hNot
  exact hNot

/-- The other positions have nodes that were not in the arena before. -/
theorem exists_fresh (hHolds : ∀ tree ∈ live, before.Holds tree.nodes)
    (hRedrawn : before.Redrawn after (idsAll live.toList)
      (nodesAll (LiveTree.brought before.slots.length live old new).toList) fresh made)
    {here : VirtualTree H} (hHere : new.bind (VirtualTree.at? path) = some here)
    (hNot : ¬ Keeps before (live.map root) old new path) :
    ∃ id, ((LiveTree.brought before.slots.length live old new).map root).bind (after.at? path) =
        some id ∧ before.node? id = none ∧ (after.node? id).isSome = true := by
  obtain ⟨start, hStart, hMount⟩ := LiveTree.at?_brought_of_not_keeps
    before.slots.length hHere (not_keeps hHolds hNot)
  have hShown := holds_of_redrawn hRedrawn
  refine ⟨.node start, ?_, Arena.node?_eq_none_of_le before hStart, ?_⟩
  · rw [at?_root_of_holds hShown, hMount, Option.map_some, LiveTree.root_mount]
  · obtain ⟨tree, hTree, hFound⟩ := Option.bind_eq_some_iff.mp hMount
    obtain ⟨-, hNode⟩ := Arena.at?_of_holds path (hShown tree hTree) hFound
    rw [LiveTree.root_mount] at hNode
    rw [hNode]
    rfl

/-- A position has the node that it had if the pass keeps it, and only then. -/
theorem kept_iff (hHolds : ∀ tree ∈ live, before.Holds tree.nodes)
    (hRedrawn : before.Redrawn after (idsAll live.toList)
      (nodesAll (LiveTree.brought before.slots.length live old new).toList) fresh made)
    {here : VirtualTree H} (hHere : new.bind (VirtualTree.at? path) = some here) :
    ((LiveTree.brought before.slots.length live old new).map root).bind (after.at? path) =
        (live.map root).bind (before.at? path) ↔ Keeps before (live.map root) old new path := by
  refine ⟨fun hEq => Classical.byContradiction fun hNot => ?_, fun hKeeps => ?_⟩
  · obtain ⟨id, hId, hNone, -⟩ := exists_fresh hHolds hRedrawn hHere hNot
    -- The node is not in the arena before the pass, so it is none of the old live tree.
    rw [hId, at?_root_of_holds hHolds, eq_comm, Option.map_eq_some_iff] at hEq
    obtain ⟨found, hFound, rfl⟩ := hEq
    obtain ⟨tree, hTree, hAt⟩ := Option.bind_eq_some_iff.mp hFound
    obtain ⟨-, hNode⟩ := Arena.at?_of_holds path (hHolds tree hTree) hAt
    rw [hNone] at hNode
    cases hNode
  · obtain ⟨hThere, hTags⟩ := (keeps_iff hHolds).mp hKeeps
    obtain ⟨found, hFound⟩ := Option.isSome_iff_exists.mp hThere
    obtain ⟨kept, hKept, hRoot⟩ := LiveTree.at?_brought_of_keeps
      before.slots.length hFound hTags
    rw [at?_root_of_holds (holds_of_redrawn hRedrawn), at?_root_of_holds hHolds, hKept, hFound,
      Option.map_some, Option.map_some, hRoot]

/-- A node of the old live tree that is shown again is one that the pass keeps. -/
theorem exists_keeps (hHolds : ∀ tree ∈ live, before.Holds tree.nodes)
    (hFollows : ∀ tree ∈ live, ∀ before ∈ old, tree.Follows before) {id : Handle}
    (hThere : (before.node? id).isSome = true)
    (hShown : id ∈ idsAll (LiveTree.brought before.slots.length live old new).toList) :
    ∃ path, Keeps before (live.map root) old new path ∧
      (live.map root).bind (before.at? path) = some id := by
  cases hAfter : LiveTree.brought before.slots.length live old new with
  | none =>
      rw [hAfter] at hShown
      cases hShown
  | some tree =>
      rw [hAfter, Option.toList_some, LiveTree.idsAll_singleton] at hShown
      rcases LiveTree.mem_ids_brought _ hFollows hAfter hShown with
        ⟨path, found, hFound, hTags, rfl⟩ | ⟨start, hStart, rfl⟩
      · refine ⟨path, (keeps_iff hHolds).mpr ⟨by rw [hFound]; rfl, hTags⟩, ?_⟩
        rw [at?_root_of_holds hHolds, hFound, Option.map_some]
      · rw [Arena.node?_eq_none_of_le before hStart] at hThere
        cases hThere

end Healed

/-- **One pass reaches the new shape**, keeps what it may and replaces what is
missing. The live tree may be absent, or it may have the tags of the old tree but
for children that are missing at the end of some lists. -/
theorem healed_reconcile (pass : Pass H) (live : Option (LiveTree H))
    (old new : Option (VirtualTree H)) (hHolds : ∀ tree ∈ live, pass.arena.Holds tree.nodes)
    (hNodup : ∀ tree ∈ live, tree.ids.Nodup)
    (hFollows : ∀ tree ∈ live, ∀ before ∈ old, tree.Follows before) :
    Healed pass.arena (pass.reconcile (live.map root) old new).2.arena (live.map root)
      (pass.reconcile (live.map root) old new).1 old new := by
  obtain ⟨hRoot, fresh, made, hRedrawn⟩ :=
    Pass.redrawn_reconcile pass live old new hHolds hNodup hFollows
  have hShape := LiveTree.shape_brought pass.arena.slots.length new hFollows
  have hNodupAfter : ∀ tree ∈ LiveTree.brought pass.arena.slots.length live old new,
      tree.ids.Nodup :=
    LiveTree.nodup_brought _ new hNodup fun tree hTree => Pass.old_of_holds (hHolds tree hTree)
  have hBelow : ∀ tree ∈ live, ∀ id, pass.arena.Below tree.root id ↔ id ∈ tree.ids :=
    fun tree hTree id => below_iff_of_holds (hHolds tree hTree) (hNodup tree hTree)
  rw [hRoot]
  exact
    { present := by
        have hSome := congrArg Option.isSome hShape
        rw [Option.isSome_map, Option.isSome_map] at hSome
        rw [Option.isSome_map, hSome]
      shape := by
        rw [← hShape]
        cases hTree : LiveTree.brought pass.arena.slots.length live old new with
        | none => rfl
        | some tree =>
            exact shape?_of_holds (holds_of_redrawn hRedrawn tree hTree) (hNodupAfter tree hTree)
      kept := fun path here hHere => kept_iff hHolds hRedrawn hHere
      fresh := fun path here hHere hNot => exists_fresh hHolds hRedrawn hHere hNot
      gone := by
        intro top hTop id hReached hNot
        obtain ⟨tree, hTree, rfl⟩ := Option.map_eq_some_iff.mp hTop
        obtain rfl : live = some tree := hTree
        have hMem := (hBelow tree rfl id).mp hReached
        refine hRedrawn.empties id (by simpa using hMem) fun hShown => ?_
        obtain ⟨path, hKeeps, hHere⟩ := exists_keeps hHolds hFollows
          (LiveTree.isSome_node?_of_holds (hHolds tree rfl) hMem) hShown
        exact hNot path hKeeps hHere
      apart := by
        intro id hThere hOutside
        have hNot : ∀ tree ∈ live, id ∉ tree.ids := fun tree hTree hMem =>
          hOutside tree.root (Option.mem_map_of_mem root hTree) ((hBelow tree hTree id).mpr hMem)
        refine hRedrawn.keeps id (fun hMem => ?_) fun hShown => ?_
        · cases live with
          | none => cases hMem
          | some tree => exact hNot tree rfl (by simpa using hMem)
        · obtain ⟨path, -, hHere⟩ := exists_keeps hHolds hFollows hThere hShown
          rw [at?_root_of_holds hHolds, Option.map_eq_some_iff] at hHere
          obtain ⟨found, hFound, rfl⟩ := hHere
          obtain ⟨tree, hTree, hAt⟩ := Option.bind_eq_some_iff.mp hFound
          exact hNot tree hTree (LiveTree.root_mem_ids_of_at? path tree hAt) }

/-- A list that has lost its second row, and is asked for that row and a mark
behind it: the list and its first row stay, the other two are fresh. -/
theorem healed_reconcile_short :
    let live : LiveTree Unit :=
      .node (.node 0) "list" .empty [] [.node (.node 1) "row" .empty [] []]
    let row : VirtualTree Unit := .node "row" .empty []
    let old : VirtualTree Unit := .node "list" .empty [row, row]
    let new : VirtualTree Unit := .node "list" .empty [row, row, .node "mark" .empty []]
    let pass : Pass Unit := .start ⟨live.nodes.map fun entry => some entry.2, []⟩
    let turned := pass.reconcile (some live.root) (some old) (some new)
    pass.arena.Holds live.nodes ∧ live.ids.Nodup ∧ live.Follows old ∧
      Healed pass.arena turned.2.arena (some live.root) turned.1 (some old) (some new) ∧
      turned.1 = some (.node 0) ∧
      turned.2.arena.children (.node 0) = [.node 1, .node 2, .node 3] := by
  intro live row old new pass turned
  have hHolds : pass.arena.Holds live.nodes :=
    Slots.holds_cons.mpr ⟨rfl, Slots.holds_cons.mpr ⟨rfl, by simp [nodesAll, Slots.Holds]⟩⟩
  have hNodup : live.ids.Nodup := by decide
  have hFollows : live.Follows old := ⟨rfl, ⟨rfl, trivial⟩, trivial⟩
  have hHealed := healed_reconcile pass (some live) (some old) (some new)
    (fun tree hTree => Option.some.inj hTree ▸ hHolds)
    (fun tree hTree => Option.some.inj hTree ▸ hNodup)
    (fun tree hTree before hBefore => Option.some.inj hTree ▸ Option.some.inj hBefore ▸ hFollows)
  exact ⟨hHolds, hNodup, hFollows, hHealed, rfl, rfl⟩

end LiveMarkup.Live
