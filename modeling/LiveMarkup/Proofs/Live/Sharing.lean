import LiveMarkup.Proofs.Live.Rebuild
import Mathlib.Algebra.BigOperators.Fin

/-!
# Views that share an arena

Any number of views may keep their live trees in one arena. `Shared` is such an
arena with its views, and `Shared.run` rebuilds the views in any order, each
time with any virtual tree.

The invariant of a run is `Shared.Displays`: the arena holds the live trees of
the views, these lie apart, and nothing else is in the arena. What a maintainer
sees of it is `Shared.Sound`, which speaks of handles and child lists alone.

## Main results

* `root_cons_links_perm` — in a live tree every handle but that of the root
  stands in one child list, once.
* `displays_rebuild` — a rebuild keeps the invariant.
* `sound_of_displays` — the invariant says all of `Shared.Sound`.
* `sound_run` — **no run leaks**: after any run the arena is sound, every view
  shows what it built last, and a further rebuild leaves the other views alone.
-/

namespace LiveMarkup.Live

open LiveTree (root nodes nodesAll idsAll)

variable {H : Type} {n : Nat}

/-! ## Child lists of a live tree -/

namespace LiveTree

/-- The handles in the child lists of nodes. -/
def links (entries : List (Handle × Node H)) : List Handle :=
  entries.flatMap fun entry => entry.2.children

theorem links_cons (entry : Handle × Node H) (entries : List (Handle × Node H)) :
    links (entry :: entries) = entry.2.children ++ links entries := rfl

theorem links_append (front back : List (Handle × Node H)) :
    links (front ++ back) = links front ++ links back := List.flatMap_append

mutual

/-- **Every handle but that of the root stands in one child list, once.** -/
theorem root_cons_links_perm : (tree : LiveTree H) →
    (tree.root :: links tree.nodes).Perm tree.ids
  | node id tag properties handlers children => by
      rw [nodes, links_cons, ids_node, root]
      exact (roots_append_links_perm children).cons id

theorem roots_append_links_perm : (trees : List (LiveTree H)) →
    (trees.map root ++ links (nodesAll trees)).Perm (idsAll trees)
  | [] => .nil
  | tree :: rest => by
      have hTree := root_cons_links_perm tree
      have hRest := roots_append_links_perm rest
      rw [nodesAll, links_append, List.map_cons, idsAll_cons, List.cons_append]
      have hOrder : (rest.map root ++ (links tree.nodes ++ links (nodesAll rest))).Perm
          (links tree.nodes ++ (rest.map root ++ links (nodesAll rest))) := by
        rw [← List.append_assoc, ← List.append_assoc]
        exact List.perm_append_comm.append_right _
      exact (hOrder.cons tree.root).trans (hTree.append hRest)

end

/-- A child of a node of a live tree is one of its handles, and not the root. -/
theorem mem_ids_of_mem_links {tree : LiveTree H} (hNodup : tree.ids.Nodup) {id : Handle}
    (hMem : id ∈ links tree.nodes) : id ∈ tree.ids ∧ id ≠ tree.root := by
  have hPerm := root_cons_links_perm tree
  have hSplit := List.nodup_cons.mp (hPerm.nodup_iff.mpr hNodup)
  refine ⟨hPerm.mem_iff.mp (List.mem_cons_of_mem _ hMem), ?_⟩
  rintro rfl
  exact hSplit.1 hMem

/-- Nodes whose child lists have no handle twice list a child in one place. -/
theorem exists_unique_parent {entries : List (Handle × Node H)} {id : Handle}
    (hNodup : (links entries).Nodup) (hMem : id ∈ links entries) :
    ∃ entry ∈ entries, entry.2.children.count id = 1 ∧
      ∀ other ∈ entries, id ∈ other.2.children → other = entry := by
  induction entries with
  | nil => cases hMem
  | cons first rest ih =>
      rw [links_cons] at hNodup hMem
      obtain ⟨hFirst, hRest, hApart⟩ := List.nodup_append.mp hNodup
      rcases List.mem_append.mp hMem with hHere | hBelow
      · refine ⟨first, by simp, List.count_eq_one_of_mem hFirst hHere, ?_⟩
        intro other hOther hIn
        rcases List.mem_cons.mp hOther with rfl | hOther
        · rfl
        · exact absurd rfl (hApart id hHere id (List.mem_flatMap.mpr ⟨other, hOther, hIn⟩))
      · obtain ⟨entry, hEntry, hCount, hUnique⟩ := ih hRest hBelow
        refine ⟨entry, List.mem_cons_of_mem _ hEntry, hCount, ?_⟩
        intro other hOther hIn
        rcases List.mem_cons.mp hOther with rfl | hOther
        · exact absurd rfl (hApart id hIn id hBelow)
        · exact hUnique other hOther hIn

end LiveTree

/-! ## Counting live nodes -/

namespace Slots

/-- The handles of the live nodes by their numbers. -/
def liveIds (slots : Slots H) : List Handle :=
  ((List.range slots.length).map Handle.node).filter fun id => (slots.node? id).isSome

theorem mem_liveIds {slots : Slots H} {id : Handle} :
    id ∈ slots.liveIds ↔ (slots.node? id).isSome = true := by
  rw [liveIds, List.mem_filter, and_iff_right_iff_imp]
  intro hSome
  obtain ⟨node, hNode⟩ := Option.isSome_iff_exists.mp hSome
  obtain ⟨number, rfl, hLt⟩ := exists_lt_of_node?_eq_some hNode
  exact List.mem_map_of_mem (List.mem_range.mpr hLt)

theorem nodup_liveIds (slots : Slots H) : slots.liveIds.Nodup := by
  refine List.Nodup.filter _ ?_
  rw [List.range_eq_range']
  exact LiveTree.nodup_map_node 0 slots.length

theorem length_liveIds (slots : Slots H) : slots.liveIds.length = slots.liveCount := by
  have hSlots : (List.range slots.length).map (fun number => slots.node? (.node number)) =
      slots := by
    refine List.ext_getElem (by simp) fun number hLeft hRight => ?_
    rw [List.getElem_map, List.getElem_range, node?, List.getElem?_eq_getElem hRight]
    rfl
  rw [liveIds, liveCount, ← List.countP_eq_length_filter, List.countP_map]
  conv_rhs => rw [← hSlots, List.countP_map]
  rfl

/-- Handles without repetition that are those of the live nodes are as many. -/
theorem liveCount_eq_length {slots : Slots H} {ids : List Handle} (hNodup : ids.Nodup)
    (hIds : ∀ id, id ∈ ids ↔ (slots.node? id).isSome = true) : slots.liveCount = ids.length := by
  have hPerm : slots.liveIds.Perm ids :=
    (List.perm_ext_iff_of_nodup slots.nodup_liveIds hNodup).mpr fun id =>
      mem_liveIds.trans (hIds id).symm
  rw [← length_liveIds, hPerm.length_eq]

end Slots

/-- The handles that are reached from a root along child lists. -/
inductive Arena.Below (arena : Arena H) (root : Handle) : Handle → Prop where
  | root : Below arena root root
  | child {parent child : Handle} (hParent : Below arena root parent)
      (hChild : child ∈ arena.children parent) : Below arena root child

theorem Arena.mem_children {arena : Arena H} {parent child : Handle}
    (h : child ∈ arena.children parent) :
    ∃ node, arena.node? parent = some node ∧ child ∈ node.children := by
  rw [Arena.children] at h
  split at h
  · exact ⟨_, ‹_›, h⟩
  · cases h

/-! ## Runs -/

/-- An arena with the views that keep their live trees in it. -/
structure Shared (H : Type) (n : Nat) where
  arena : Arena H
  bindings : Fin n → Binding H

namespace Shared

/-- An empty arena and views that have not been mounted. -/
def start : Shared H n := ⟨.empty, fun _ => .unmounted⟩

/-- One of the views is rebuilt. -/
def rebuild (world : Shared H n) (who : Fin n) (new : VirtualTree H) : Shared H n :=
  ⟨((world.bindings who).rebuild world.arena new).2.arena,
    Function.update world.bindings who ((world.bindings who).rebuild world.arena new).1⟩

theorem bindings_rebuild_self (world : Shared H n) (who : Fin n) (new : VirtualTree H) :
    (world.rebuild who new).bindings who = ((world.bindings who).rebuild world.arena new).1 :=
  Function.update_self who _ world.bindings

theorem bindings_rebuild_of_ne (world : Shared H n) {who other : Fin n} (hNe : other ≠ who)
    (new : VirtualTree H) : (world.rebuild who new).bindings other = world.bindings other :=
  Function.update_of_ne hNe _ world.bindings

/-- Views are rebuilt one after the other. -/
def run (steps : List (Fin n × VirtualTree H)) : Shared H n :=
  steps.foldl (fun world step => world.rebuild step.1 step.2) start

/-- The virtual tree that a view built last. -/
def built (steps : List (Fin n × VirtualTree H)) (who : Fin n) : Option (VirtualTree H) :=
  ((steps.filter (·.1 = who)).getLast?).map Prod.snd

/-- The handle is the live root of the view. -/
def IsRoot (world : Shared H n) (id : Handle) (who : Fin n) : Prop :=
  (world.bindings who).retained.root = some id

/-- What is to be seen of an arena that its views share without leaving
anything behind. -/
structure Sound (world : Shared H n) : Prop where
  /-- The live tree of a view has the shape of the virtual tree retained. -/
  shows : ∀ who tree, (world.bindings who).retained.previous = some tree →
    ∃ root, world.IsRoot root who ∧ world.arena.shape? root = some tree.shape
  /-- Child lists hold live nodes only. -/
  closed : ∀ parent, ∀ id ∈ world.arena.children parent, (world.arena.node? id).isSome = true
  /-- A live node is the root of one view, or a child in one place. -/
  placed : ∀ id, (world.arena.node? id).isSome = true →
    ((∃! who, world.IsRoot id who) ∧ ∀ parent, id ∉ world.arena.children parent) ∨
    ((∀ who, ¬ world.IsRoot id who) ∧ ∃ parent, (world.arena.children parent).count id = 1 ∧
      ∀ other, id ∈ world.arena.children other → other = parent)
  /-- The views need all the live nodes. -/
  size : world.arena.size =
    ∑ who, ((world.bindings who).retained.previous.map VirtualTree.count).getD 0

/-- The arena holds what the views show, apart from one another, and no more. -/
structure Displays (world : Shared H n) (views : Fin n → View H) : Prop where
  shows : ∀ who, (world.bindings who).retained.Shows world.arena (views who)
  apart : ∀ who other, who ≠ other → ∀ id ∈ (views who).ids, id ∉ (views other).ids
  covers : ∀ id, (world.arena.node? id).isSome = true → ∃ who, id ∈ (views who).ids

namespace Displays

variable {world : Shared H n} {views : Fin n → View H}

theorem displays_start : (start : Shared H n).Displays fun _ => none where
  shows := fun _ => rfl
  apart := fun _ _ _ _ hMem => absurd hMem List.not_mem_nil
  covers := by
    intro id hSome
    obtain ⟨node, hNode⟩ := Option.isSome_iff_exists.mp hSome
    obtain ⟨number, -, hLt⟩ := Slots.exists_lt_of_node?_eq_some hNode
    exact absurd hLt (Nat.not_lt_zero number)

/-- The nodes of other views are neither nodes of a view nor fresh ones. -/
theorem not_mem_turn (h : world.Displays views) {who other : Fin n} (hNe : other ≠ who)
    (new : VirtualTree H) {id : Handle} (hMem : id ∈ (views other).ids) :
    id ∉ ((views who).turn world.arena.slots.length new).tree.ids := by
  intro hIn
  rcases View.mem_ids_turn hIn with hOld | hFresh
  · exact h.apart other who hNe id hMem hOld
  · obtain ⟨node, hNode⟩ := Option.isSome_iff_exists.mp ((h.shows other).isSome_node? hMem)
    exact Pass.not_isFresh_of_node? hNode _ hFresh

/-- **A rebuild leaves the nodes of the other views alone.** -/
theorem node?_rebuild (h : world.Displays views) {who other : Fin n} (hNe : other ≠ who)
    (new : VirtualTree H) {id : Handle} (hMem : id ∈ (views other).ids) :
    (world.rebuild who new).arena.node? id = world.arena.node? id :=
  (Retained.redrawn_rebuild (h.shows who) new).keeps id (h.apart other who hNe id hMem)
    (h.not_mem_turn hNe new hMem)

/-- **A rebuild keeps the invariant.** -/
theorem displays_rebuild (h : world.Displays views) (who : Fin n) (new : VirtualTree H) :
    (world.rebuild who new).Displays
      (Function.update views who ((views who).after world.arena.slots.length new)) where
  shows := by
    intro other
    by_cases hEq : other = who
    · subst hEq
      rw [bindings_rebuild_self, Function.update_self]
      exact Retained.shows_rebuild (h.shows other) new
    · rw [Function.update_of_ne hEq, world.bindings_rebuild_of_ne hEq]
      exact (h.shows other).congr fun id hMem => h.node?_rebuild hEq new hMem
  apart := by
    intro a b hNe id hA hB
    by_cases hWhoA : a = who
    · subst hWhoA
      rw [Function.update_self] at hA
      rw [Function.update_of_ne hNe.symm] at hB
      exact h.not_mem_turn hNe.symm new hB hA
    · rw [Function.update_of_ne hWhoA] at hA
      by_cases hWhoB : b = who
      · subst hWhoB
        rw [Function.update_self] at hB
        exact h.not_mem_turn hNe new hA hB
      · rw [Function.update_of_ne hWhoB] at hB
        exact h.apart a b hNe id hA hB
  covers := by
    intro id hSome
    have hRedrawn := Retained.redrawn_rebuild (h.shows who) new
    by_cases hShown : id ∈ ((views who).turn world.arena.slots.length new).tree.ids
    · exact ⟨who, by rw [Function.update_self]; exact hShown⟩
    · -- A node that is not shown was there before, and not in the view that is rebuilt.
      have hNot : id ∉ (views who).ids := by
        intro hGone
        have hNone : (world.rebuild who new).arena.node? id = none :=
          hRedrawn.empties id hGone hShown
        rw [hNone] at hSome
        cases hSome
      have hKept : (world.rebuild who new).arena.node? id = world.arena.node? id :=
        hRedrawn.keeps id hNot hShown
      rw [hKept] at hSome
      obtain ⟨other, hMem⟩ := h.covers id hSome
      have hNe : other ≠ who := fun hEq => hNot (hEq ▸ hMem)
      exact ⟨other, by rw [Function.update_of_ne hNe]; exact hMem⟩

theorem retained_eq_nothing (h : world.Displays views) {who : Fin n} (hView : views who = none) :
    (world.bindings who).retained = .nothing := by
  have hShows := h.shows who
  rw [hView] at hShows
  exact hShows

theorem mounted (h : world.Displays views) {who : Fin n} {live : LiveTree H}
    {tree : VirtualTree H} (hView : views who = some (live, tree)) :
    (world.bindings who).retained.Mounted world.arena live tree := by
  have hShows := h.shows who
  rw [hView] at hShows
  exact hShows

/-- A node of the arena is the node of a live tree of some view. -/
theorem exists_entry (h : world.Displays views) {id : Handle} {node : Node H}
    (hNode : world.arena.node? id = some node) :
    ∃ who live tree, views who = some (live, tree) ∧ (id, node) ∈ live.nodes := by
  obtain ⟨who, hMem⟩ := h.covers id (by rw [hNode]; rfl)
  cases hView : views who with
  | none =>
      rw [hView] at hMem
      cases hMem
  | some shown =>
      obtain ⟨live, tree⟩ := shown
      have hMounted := h.mounted hView
      rw [hView] at hMem
      obtain ⟨entry, hEntry, hId⟩ := List.mem_map.mp hMem
      refine ⟨who, live, tree, hView, ?_⟩
      have hHeld : world.arena.node? entry.1 = some entry.2 := hMounted.holds entry hEntry
      rw [hId, hNode, Option.some.injEq] at hHeld
      rw [hHeld, ← hId]
      exact hEntry

/-- A child belongs to the live tree of its parent, and is not the root. -/
theorem exists_link (h : world.Displays views) {parent id : Handle}
    (hMem : id ∈ world.arena.children parent) :
    ∃ who live tree, views who = some (live, tree) ∧ parent ∈ live.ids ∧
      id ∈ LiveTree.links live.nodes := by
  obtain ⟨node, hNode, hChild⟩ := Arena.mem_children hMem
  obtain ⟨who, live, tree, hView, hEntry⟩ := h.exists_entry hNode
  exact ⟨who, live, tree, hView, List.mem_map_of_mem hEntry,
    List.mem_flatMap.mpr ⟨(parent, node), hEntry, hChild⟩⟩

/-- A view that shows a handle is the only one. -/
theorem eq_of_mem (h : world.Displays views) {who other : Fin n} {id : Handle}
    (hWho : id ∈ (views who).ids) (hOther : id ∈ (views other).ids) : who = other :=
  Classical.byContradiction fun hNe => h.apart who other hNe id hWho hOther

/-- The live root of a view is the root of its live tree. -/
theorem exists_of_isRoot (h : world.Displays views) {who : Fin n} {id : Handle}
    (hRoot : world.IsRoot id who) : ∃ live tree, views who = some (live, tree) ∧ live.root = id := by
  rw [IsRoot] at hRoot
  cases hView : views who with
  | none =>
      rw [h.retained_eq_nothing hView] at hRoot
      cases hRoot
  | some shown =>
      obtain ⟨live, tree⟩ := shown
      rw [(h.mounted hView).root, Option.some.injEq] at hRoot
      exact ⟨live, tree, rfl, hRoot⟩

/-- What is reached from the live root of a view belongs to the view. -/
theorem mem_of_below (h : world.Displays views) {who : Fin n} {root id : Handle}
    (hRoot : world.IsRoot root who) (hBelow : world.arena.Below root id) : id ∈ (views who).ids := by
  induction hBelow with
  | root =>
      obtain ⟨live, tree, hView, rfl⟩ := h.exists_of_isRoot hRoot
      rw [hView]
      exact LiveTree.root_mem_ids live
  | child _ hChild ih =>
      obtain ⟨other, live, tree, hView, hParent, hLink⟩ := h.exists_link hChild
      have hSame : who = other := h.eq_of_mem ih (by rw [hView]; exact hParent)
      rw [hSame, hView]
      exact (LiveTree.mem_ids_of_mem_links (h.mounted hView).nodup hLink).1

theorem shows_tree (h : world.Displays views) {who : Fin n} {tree : VirtualTree H}
    (hPrevious : (world.bindings who).retained.previous = some tree) :
    ∃ root, world.IsRoot root who ∧ world.arena.shape? root = some tree.shape := by
  cases hView : views who with
  | none =>
      rw [h.retained_eq_nothing hView] at hPrevious
      cases hPrevious
  | some shown =>
      obtain ⟨live, shownTree⟩ := shown
      have hMounted := h.mounted hView
      have hTree : shownTree = tree :=
        Option.some.inj (hMounted.previous.symm.trans hPrevious)
      refine ⟨live.root, hMounted.root, ?_⟩
      rw [shape?_of_holds hMounted.holds hMounted.nodup, hMounted.shape, hTree]

theorem closed_children (h : world.Displays views) {parent id : Handle}
    (hMem : id ∈ world.arena.children parent) : (world.arena.node? id).isSome = true := by
  obtain ⟨who, live, tree, hView, -, hLink⟩ := h.exists_link hMem
  refine (h.shows who).isSome_node? ?_
  rw [hView]
  exact (LiveTree.mem_ids_of_mem_links (h.mounted hView).nodup hLink).1

/-- The root of a live tree is the live root of one view and nobody's child. -/
theorem placed_root (h : world.Displays views) {who : Fin n} {live : LiveTree H}
    {tree : VirtualTree H} (hView : views who = some (live, tree)) :
    (∃! who, world.IsRoot live.root who) ∧ ∀ parent, live.root ∉ world.arena.children parent := by
  have hHere : live.root ∈ (views who).ids := by
    rw [hView]
    exact LiveTree.root_mem_ids live
  refine ⟨⟨who, (h.mounted hView).root, ?_⟩, ?_⟩
  · intro other hRoot
    obtain ⟨live', tree', hView', hEq⟩ := h.exists_of_isRoot hRoot
    refine h.eq_of_mem ?_ hHere
    rw [hView', ← hEq]
    exact LiveTree.root_mem_ids live'
  · intro parent hMem
    obtain ⟨other, live', tree', hView', -, hLink⟩ := h.exists_link hMem
    obtain ⟨hIn, hNe⟩ := LiveTree.mem_ids_of_mem_links (h.mounted hView').nodup hLink
    have hSame : who = other := h.eq_of_mem hHere (by rw [hView']; exact hIn)
    rw [← hSame, hView, Option.some.injEq, Prod.mk.injEq] at hView'
    exact hNe (congrArg root hView'.1)

/-- A handle of a live tree other than the root is a child in one place. -/
theorem placed_link (h : world.Displays views) {who : Fin n} {live : LiveTree H}
    {tree : VirtualTree H} {id : Handle} (hView : views who = some (live, tree))
    (hLink : id ∈ LiveTree.links live.nodes) :
    (∀ who, ¬ world.IsRoot id who) ∧ ∃ parent, (world.arena.children parent).count id = 1 ∧
      ∀ other, id ∈ world.arena.children other → other = parent := by
  have hMounted := h.mounted hView
  obtain ⟨hIn, hNe⟩ := LiveTree.mem_ids_of_mem_links hMounted.nodup hLink
  have hHere : id ∈ (views who).ids := by
    rw [hView]
    exact hIn
  have hNodup : (LiveTree.links live.nodes).Nodup :=
    (List.nodup_cons.mp ((LiveTree.root_cons_links_perm live).nodup_iff.mpr hMounted.nodup)).2
  refine ⟨?_, ?_⟩
  · intro other hRoot
    obtain ⟨live', tree', hView', rfl⟩ := h.exists_of_isRoot hRoot
    have hSame : who = other :=
      h.eq_of_mem hHere (by rw [hView']; exact LiveTree.root_mem_ids live')
    rw [← hSame, hView, Option.some.injEq, Prod.mk.injEq] at hView'
    exact hNe (congrArg root hView'.1.symm)
  · obtain ⟨entry, hEntry, hCount, hUnique⟩ := LiveTree.exists_unique_parent hNodup hLink
    have hNode : world.arena.node? entry.1 = some entry.2 := hMounted.holds entry hEntry
    refine ⟨entry.1, ?_, ?_⟩
    · rw [Arena.children, hNode]
      exact hCount
    · intro other hMem
      obtain ⟨node, hOther, hChild⟩ := Arena.mem_children hMem
      obtain ⟨who', live', tree', hView', hEntry'⟩ := h.exists_entry hOther
      have hLink' : id ∈ LiveTree.links live'.nodes :=
        List.mem_flatMap.mpr ⟨(other, node), hEntry', hChild⟩
      have hIn' := (LiveTree.mem_ids_of_mem_links (h.mounted hView').nodup hLink').1
      have hSame : who = who' := h.eq_of_mem hHere (by rw [hView']; exact hIn')
      rw [← hSame, hView, Option.some.injEq, Prod.mk.injEq] at hView'
      rw [← hView'.1] at hEntry'
      exact congrArg Prod.fst (hUnique (other, node) hEntry' hChild)

theorem placed_node (h : world.Displays views) {id : Handle}
    (hSome : (world.arena.node? id).isSome = true) :
    ((∃! who, world.IsRoot id who) ∧ ∀ parent, id ∉ world.arena.children parent) ∨
    ((∀ who, ¬ world.IsRoot id who) ∧ ∃ parent, (world.arena.children parent).count id = 1 ∧
      ∀ other, id ∈ world.arena.children other → other = parent) := by
  obtain ⟨node, hNode⟩ := Option.isSome_iff_exists.mp hSome
  obtain ⟨who, live, tree, hView, hEntry⟩ := h.exists_entry hNode
  have hMem : id ∈ live.root :: LiveTree.links live.nodes :=
    (LiveTree.root_cons_links_perm live).mem_iff.mpr (List.mem_map_of_mem hEntry)
  rcases List.mem_cons.mp hMem with rfl | hLink
  · exact .inl (h.placed_root hView)
  · exact .inr (h.placed_link hView hLink)

/-- A view shows as many nodes as its virtual tree has. -/
theorem length_ids (h : world.Displays views) (who : Fin n) :
    (views who).ids.length =
      ((world.bindings who).retained.previous.map VirtualTree.count).getD 0 := by
  cases hView : views who with
  | none =>
      rw [h.retained_eq_nothing hView]
      rfl
  | some shown =>
      obtain ⟨live, tree⟩ := shown
      have hMounted := h.mounted hView
      rw [hMounted.previous, View.ids, LiveTree.length_ids, hMounted.shape, VirtualTree.count_shape]
      rfl

/-- The views need all the live nodes. -/
theorem size_eq (h : world.Displays views) :
    world.arena.size =
      ∑ who, ((world.bindings who).retained.previous.map VirtualTree.count).getD 0 := by
  have hNodup : ((List.finRange n).flatMap fun who => (views who).ids).Nodup := by
    rw [List.nodup_flatMap]
    refine ⟨?_, ?_⟩
    · intro who _
      cases hView : views who with
      | none => exact List.nodup_nil
      | some shown => exact (h.mounted hView).nodup
    · refine (List.nodup_finRange n).imp ?_
      intro who other hNe id hWho hOther
      exact h.apart who other hNe id hWho hOther
  have hIds : ∀ id, id ∈ (List.finRange n).flatMap (fun who => (views who).ids) ↔
      (world.arena.slots.node? id).isSome = true := by
    intro id
    rw [List.mem_flatMap]
    refine ⟨?_, ?_⟩
    · rintro ⟨who, -, hMem⟩
      exact (h.shows who).isSome_node? hMem
    · intro hSome
      obtain ⟨who, hMem⟩ := h.covers id hSome
      exact ⟨who, List.mem_finRange who, hMem⟩
  rw [Arena.size, Slots.liveCount_eq_length hNodup hIds, List.length_flatMap, Fin.sum_univ_def]
  congr 1
  exact List.map_congr_left fun who _ => h.length_ids who

/-- The invariant says all that is to be seen. -/
theorem sound_of_displays (h : world.Displays views) : world.Sound where
  shows := fun _ _ hPrevious => h.shows_tree hPrevious
  closed := fun _ _ hMem => h.closed_children hMem
  placed := fun _ hSome => h.placed_node hSome
  size := h.size_eq

end Displays

/-- The steps taken so far are as good as the last one. -/
theorem run_append (steps : List (Fin n × VirtualTree H)) (step : Fin n × VirtualTree H) :
    run (steps ++ [step]) = (run steps).rebuild step.1 step.2 := by
  rw [run, List.foldl_append]
  rfl

/-- A run keeps the invariant. -/
theorem exists_displays_run (steps : List (Fin n × VirtualTree H)) :
    ∃ views, (run steps).Displays views := by
  induction steps using List.reverseRecOn with
  | nil => exact ⟨_, Displays.displays_start⟩
  | append_singleton steps step ih =>
      obtain ⟨views, hDisplays⟩ := ih
      rw [run_append]
      exact ⟨_, hDisplays.displays_rebuild step.1 step.2⟩

/-- A view retains the virtual tree that it built last. -/
theorem previous_run (steps : List (Fin n × VirtualTree H)) (who : Fin n) :
    ((run steps).bindings who).retained.previous = built steps who := by
  induction steps using List.reverseRecOn with
  | nil => rfl
  | append_singleton steps step ih =>
      rw [run_append, built, List.filter_append]
      by_cases hEq : who = step.1
      · subst hEq
        rw [bindings_rebuild_self]
        simp [Binding.rebuild, Retained.previous_rebuild]
      · have hNone : [step].filter (·.1 = who) = [] := by simp [Ne.symm hEq]
        rw [bindings_rebuild_of_ne _ hEq, ih, hNone, List.append_nil, built]

/-- **No run leaks.** Whatever views that share an arena have built, in whatever
order: each shows what it built last, the arena holds what the views show and
nothing else, and rebuilding one more view changes no node of another. -/
theorem sound_run (steps : List (Fin n × VirtualTree H)) :
    (run steps).Sound ∧
      (∀ who, ((run steps).bindings who).retained.previous = built steps who) ∧
      ∀ who other new root id, other ≠ who → (run steps).IsRoot root other →
        (run steps).arena.Below root id →
          ((run steps).rebuild who new).arena.node? id = (run steps).arena.node? id := by
  obtain ⟨views, hDisplays⟩ := exists_displays_run steps
  refine ⟨hDisplays.sound_of_displays, previous_run steps, ?_⟩
  intro who other new root id hNe hRoot hBelow
  exact hDisplays.node?_rebuild hNe new (hDisplays.mem_of_below hRoot hBelow)

/-- Two views in one arena, and the first of them builds another tag: the live
node of the second is left alone. -/
theorem sound_run_two_views :
    let world : Shared Unit 2 :=
      run [(0, .node "page" .empty [.node "row" .empty []]), (1, .node "bar" .empty [])]
    world.Sound ∧ world.IsRoot (.node 2) 1 ∧ world.arena.Below (.node 2) (.node 2) ∧
      (world.rebuild 0 (.node "list" .empty [])).arena.node? (.node 2) =
        world.arena.node? (.node 2) := by
  intro world
  have hNe : (1 : Fin 2) ≠ 0 := by decide
  have hRoot : world.IsRoot (.node 2) 1 := rfl
  have hRun := sound_run
    [((0 : Fin 2), (.node "page" .empty [.node "row" .empty []] : VirtualTree Unit)),
      (1, .node "bar" .empty [])]
  exact ⟨hRun.1, hRoot, .root, hRun.2.2 0 1 (.node "list" .empty []) _ _ hNe hRoot .root⟩

end Shared

end LiveMarkup.Live
