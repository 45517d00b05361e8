import LiveMarkup.Live.Outline
import Mathlib.Data.List.Perm.Subperm

/-!
# Live trees as values

An arena holds nodes that name one another by handles. Below a handle of a
well-behaved arena hangs a tree, and this module writes that tree down as a
value: `LiveTree` has at every position the handle of the node and what the
arena holds under it. `Arena.Holds` says that a list of nodes stands in an
arena, and `LiveTree.nodes` is the list that a live tree asks for.

What the arena answers about the tree below a handle is then read off the
value, by induction over it, and the arena is not followed again.

## Main results

* `shape?_of_holds` — the shape that the arena gives for the root of a live
  tree is the shape of the value.
* `node?_foldl_empty`, `length_foldl_empty` — emptying slots one after the
  other empties these and no others.
* `emptyAll_of_holds` — disposing of a live tree empties exactly the slots of
  its nodes.
-/

namespace LiveMarkup.Live

variable {H : Type}

/-- A live tree: at every position the handle of a node, what the node holds,
and the live trees of its children. -/
inductive LiveTree (H : Type) where
  | node (id : Handle) (tag : String) (properties : Properties H)
      (handlers : List (String × H)) (children : List (LiveTree H))

namespace LiveTree

/-- The handle of the root. -/
def root : LiveTree H → Handle
  | node id _ _ _ _ => id

/-- The tag of the root. -/
def tag : LiveTree H → String
  | node _ tag _ _ _ => tag

/-- The properties of the root. -/
def properties : LiveTree H → Properties H
  | node _ _ properties _ _ => properties

/-- The handlers of the root. -/
def handlers : LiveTree H → List (String × H)
  | node _ _ _ handlers _ => handlers

/-- The live trees below the root. -/
def children : LiveTree H → List (LiveTree H)
  | node _ _ _ _ children => children

mutual

/-- The nodes of a live tree in pre-order, as an arena holds them. -/
def nodes : LiveTree H → List (Handle × Node H)
  | node id tag properties handlers children =>
    (id, ⟨tag, properties, handlers, children.map root⟩) :: nodesAll children

/-- The nodes of live trees in a row. -/
def nodesAll : List (LiveTree H) → List (Handle × Node H)
  | [] => []
  | tree :: rest => nodes tree ++ nodesAll rest

end

mutual

/-- The tags of a live tree. -/
def shape : LiveTree H → Shape
  | node _ tag _ _ children => .node tag (shapeAll children)

/-- The tags of live trees in a row. -/
def shapeAll : List (LiveTree H) → List Shape
  | [] => []
  | tree :: rest => shape tree :: shapeAll rest

end

/-- The handles of a live tree in pre-order. -/
def ids (tree : LiveTree H) : List Handle :=
  tree.nodes.map Prod.fst

/-- The handles of live trees in a row. -/
def idsAll (trees : List (LiveTree H)) : List Handle :=
  (nodesAll trees).map Prod.fst

@[simp] theorem ids_node (id : Handle) (tag : String) (properties : Properties H)
    (handlers : List (String × H)) (children : List (LiveTree H)) :
    (node id tag properties handlers children).ids = id :: idsAll children := by
  simp [ids, idsAll, nodes]

@[simp] theorem idsAll_nil : idsAll ([] : List (LiveTree H)) = [] := rfl

@[simp] theorem idsAll_cons (tree : LiveTree H) (rest : List (LiveTree H)) :
    idsAll (tree :: rest) = tree.ids ++ idsAll rest := by
  simp [idsAll, ids, nodesAll]

theorem root_mem_ids (tree : LiveTree H) : tree.root ∈ tree.ids := by
  cases tree
  simp [root]

theorem ids_eq (tree : LiveTree H) : tree.ids = tree.root :: idsAll tree.children := by
  cases tree
  simp [root, children]

theorem mem_ids_of_mem_children {tree : LiveTree H} {id : Handle}
    (h : id ∈ idsAll tree.children) : id ∈ tree.ids := by
  rw [ids_eq]
  exact List.mem_cons_of_mem _ h

theorem nodes_sublist {lives : List (LiveTree H)} {live : LiveTree H} (hMem : live ∈ lives) :
    live.nodes.Sublist (nodesAll lives) := by
  induction lives with
  | nil => cases hMem
  | cons first rest ih =>
      rw [nodesAll]
      rcases List.mem_cons.mp hMem with rfl | hMem
      · exact List.sublist_append_left _ _
      · exact (ih hMem).trans (List.sublist_append_right _ _)

/-- The handles of a live tree in a row are among those of the row, in their order. -/
theorem ids_sublist {lives : List (LiveTree H)} {live : LiveTree H} (hMem : live ∈ lives) :
    live.ids.Sublist (idsAll lives) :=
  (nodes_sublist hMem).map Prod.fst

mutual

/-- A live tree has as many handles as its shape has positions. -/
theorem length_ids : (tree : LiveTree H) → tree.ids.length = tree.shape.count
  | node _ _ _ _ children => by
      rw [ids_node, List.length_cons, shape, Shape.count, length_idsAll children]
      omega

theorem length_idsAll :
    (trees : List (LiveTree H)) → (idsAll trees).length = Shape.countAll (shapeAll trees)
  | [] => rfl
  | tree :: rest => by
      rw [idsAll_cons, List.length_append, shapeAll, Shape.countAll, length_ids tree,
        length_idsAll rest]

end

end LiveTree

open LiveTree

/-! ## Trees in an arena -/

namespace Slots

/-- The given nodes stand in the slots. -/
def Holds (slots : Slots H) (entries : List (Handle × Node H)) : Prop :=
  ∀ entry ∈ entries, slots.node? entry.1 = some entry.2

theorem Holds.mono {slots : Slots H} {entries fewer : List (Handle × Node H)}
    (hHolds : slots.Holds entries) (hSub : fewer ⊆ entries) : slots.Holds fewer :=
  fun entry hMem => hHolds entry (hSub hMem)

theorem holds_append {slots : Slots H} {front back : List (Handle × Node H)} :
    slots.Holds (front ++ back) ↔ slots.Holds front ∧ slots.Holds back := by
  simp only [Holds, List.mem_append]
  exact ⟨fun h => ⟨fun e he => h e (.inl he), fun e he => h e (.inr he)⟩,
    fun h e he => he.elim (h.1 e) (h.2 e)⟩

theorem holds_cons {slots : Slots H} {entry : Handle × Node H}
    {entries : List (Handle × Node H)} :
    slots.Holds (entry :: entries) ↔
      slots.node? entry.1 = some entry.2 ∧ slots.Holds entries := by
  simp [Holds]

/-- What stands in one arena stands in another that agrees on the handles. -/
theorem Holds.congr {before after : Slots H} {entries : List (Handle × Node H)}
    (hHolds : before.Holds entries)
    (hSame : ∀ id ∈ entries.map Prod.fst, after.node? id = before.node? id) :
    after.Holds entries := by
  intro entry hMem
  rw [hSame entry.1 (List.mem_map_of_mem hMem)]
  exact hHolds entry hMem

/-- A node that is there stands behind a handle that has been given out. -/
theorem exists_lt_of_node?_eq_some {slots : Slots H} {id : Handle} {node : Node H}
    (h : slots.node? id = some node) : ∃ number, id = .node number ∧ number < slots.length := by
  cases id with
  | null => simp [node?] at h
  | node number =>
      refine ⟨number, rfl, ?_⟩
      rw [node?, Option.join_eq_some_iff] at h
      exact (List.getElem?_eq_some_iff.mp h).1

/-- The handles of nodes that are there, each listed once, are no more than
the slots. -/
theorem Holds.length_le {slots : Slots H} {entries : List (Handle × Node H)}
    (hHolds : slots.Holds entries) (hNodup : (entries.map Prod.fst).Nodup) :
    entries.length ≤ slots.length := by
  have hSub : entries.map Prod.fst ⊆ (List.range slots.length).map Handle.node := by
    intro id hMem
    obtain ⟨entry, hEntry, rfl⟩ := List.mem_map.mp hMem
    obtain ⟨number, hId, hLt⟩ := exists_lt_of_node?_eq_some (hHolds entry hEntry)
    rw [hId]
    exact List.mem_map_of_mem (List.mem_range.mpr hLt)
  have hLe := (List.subperm_of_subset hNodup hSub).length_le
  simpa using hLe

end Slots

/-- The given nodes stand in the arena. -/
def Arena.Holds (arena : Arena H) (entries : List (Handle × Node H)) : Prop :=
  arena.slots.Holds entries

/-- Behind the handles of a live tree there are nodes. -/
theorem LiveTree.isSome_node?_of_holds {arena : Arena H} {tree : LiveTree H}
    (hHolds : arena.Holds tree.nodes) {id : Handle} (hMem : id ∈ tree.ids) :
    (arena.node? id).isSome = true := by
  obtain ⟨entry, hEntry, rfl⟩ := List.mem_map.mp hMem
  have hNode : arena.node? entry.1 = some entry.2 := hHolds entry hEntry
  rw [hNode]
  rfl

mutual

/-- The shape below the root of a live tree, seen to a depth that is no less
than the number of its nodes. -/
theorem shapeWithin_of_holds (arena : Arena H) : (tree : LiveTree H) → (depth : Nat) →
    arena.Holds tree.nodes → tree.ids.length ≤ depth →
    arena.shapeWithin depth tree.root = some tree.shape
  | node id tag properties handlers children, depth, hHolds, hDepth => by
      rw [nodes, Arena.Holds, Slots.holds_cons] at hHolds
      obtain ⟨depth, rfl⟩ : ∃ less, depth = less + 1 := by
        rw [ids_node, List.length_cons] at hDepth
        exact ⟨depth - 1, by omega⟩
      have hNode : arena.node? id = some ⟨tag, properties, handlers, children.map root⟩ := hHolds.1
      have hBelow := shapeAllWithin_of_holds arena children depth hHolds.2
        (by rw [ids_node, List.length_cons] at hDepth; omega)
      rw [root, Arena.shapeWithin, hNode, shape]
      simp only [hBelow]

theorem shapeAllWithin_of_holds (arena : Arena H) : (trees : List (LiveTree H)) →
    (depth : Nat) → arena.Holds (nodesAll trees) → (idsAll trees).length ≤ depth →
    (trees.map root).filterMap (arena.shapeWithin depth) = shapeAll trees
  | [], _, _, _ => rfl
  | tree :: rest, depth, hHolds, hDepth => by
      rw [nodesAll, Arena.Holds, Slots.holds_append] at hHolds
      rw [idsAll_cons, List.length_append] at hDepth
      have hHead := shapeWithin_of_holds arena tree depth hHolds.1 (by omega)
      have hTail := shapeAllWithin_of_holds arena rest depth hHolds.2 (by omega)
      rw [List.map_cons, List.filterMap_cons, hHead, hTail, shapeAll]

end

/-- **The arena shows the tree**: the shape that it gives for the root of a
live tree is the shape of the value. -/
theorem shape?_of_holds {arena : Arena H} {tree : LiveTree H} (hHolds : arena.Holds tree.nodes)
    (hNodup : tree.ids.Nodup) : arena.shape? tree.root = some tree.shape := by
  have hLength := Slots.Holds.length_le hHolds hNodup
  refine shapeWithin_of_holds arena tree _ hHolds ?_
  rw [ids, List.length_map]
  omega

/-! ## Disposing of a tree -/

namespace Slots

theorem node?_empty_self (slots : Slots H) (id : Handle) : (slots.empty id).node? id = none := by
  cases id with
  | null => rfl
  | node number =>
      simp only [empty, node?, List.getElem?_set_self']
      cases slots[number]? <;> rfl

theorem node?_empty_ne (slots : Slots H) {id other : Handle} (h : other ≠ id) :
    (slots.empty id).node? other = slots.node? other := by
  cases id with
  | null => rfl
  | node number =>
      cases other with
      | null => rfl
      | node other =>
          have hNe : number ≠ other := fun hEq => h (by rw [hEq])
          simp only [empty, node?, List.getElem?_set_ne hNe]

@[simp] theorem length_empty (slots : Slots H) (id : Handle) :
    (slots.empty id).length = slots.length := by
  cases id <;> simp [empty]

/-- Emptying slots one after the other empties these and no others. -/
theorem node?_foldl_empty (ids : List Handle) (slots : Slots H) (id : Handle) :
    (ids.foldl empty slots).node? id = if id ∈ ids then none else slots.node? id := by
  induction ids generalizing slots with
  | nil => simp
  | cons first rest ih =>
      rw [List.foldl_cons, ih]
      by_cases hRest : id ∈ rest
      · simp [hRest]
      · by_cases hFirst : id = first
        · subst hFirst
          simp [hRest, node?_empty_self]
        · simp [hRest, hFirst, node?_empty_ne slots hFirst]

@[simp] theorem length_foldl_empty (ids : List Handle) (slots : Slots H) :
    (ids.foldl empty slots).length = slots.length := by
  induction ids generalizing slots with
  | nil => rfl
  | cons first rest ih => rw [List.foldl_cons, ih, length_empty]

end Slots

mutual

/-- Disposing of a live tree empties exactly the slots of its nodes, whatever
there is still to be disposed of afterwards. -/
theorem emptyAll_of_holds : (tree : LiveTree H) → (slots : Slots H) → (work : List Handle) →
    slots.Holds tree.nodes → tree.ids.Nodup →
    slots.emptyAll (tree.root :: work) = (tree.ids.foldl Slots.empty slots).emptyAll work
  | node id tag properties handlers children, slots, work, hHolds, hNodup => by
      rw [nodes, Slots.holds_cons] at hHolds
      rw [ids_node, List.nodup_cons] at hNodup
      have hBelow : (slots.empty id).Holds (nodesAll children) :=
        hHolds.2.congr fun other hMem =>
          Slots.node?_empty_ne slots fun hEq => hNodup.1 (hEq ▸ hMem)
      rw [root, Slots.emptyAll]
      split
      · rename_i hNone
        rw [hHolds.1] at hNone
        cases hNone
      · rename_i found hFound
        have hChildren : found.children = children.map root := by
          rw [hHolds.1, Option.some.injEq] at hFound
          rw [← hFound]
        rw [hChildren, emptyAll_of_holdsAll children _ work hBelow hNodup.2, ids_node,
          List.foldl_cons]

theorem emptyAll_of_holdsAll : (trees : List (LiveTree H)) → (slots : Slots H) →
    (work : List Handle) → slots.Holds (nodesAll trees) → (idsAll trees).Nodup →
    slots.emptyAll (trees.map root ++ work) = ((idsAll trees).foldl Slots.empty slots).emptyAll work
  | [], _, _, _, _ => rfl
  | tree :: rest, slots, work, hHolds, hNodup => by
      rw [nodesAll, Slots.holds_append] at hHolds
      rw [idsAll_cons, List.nodup_append] at hNodup
      obtain ⟨hTree, hRest, hApart⟩ := hNodup
      have hBehind : (tree.ids.foldl Slots.empty slots).Holds (nodesAll rest) :=
        hHolds.2.congr fun id hMem => by
          rw [Slots.node?_foldl_empty, if_neg fun hIn => hApart id hIn id hMem rfl]
      rw [List.map_cons, List.cons_append, emptyAll_of_holds tree slots _ hHolds.1 hTree,
        emptyAll_of_holdsAll rest _ work hBehind hRest, idsAll_cons, List.foldl_append]

end

/-- The child at an index, where the children from there on are known. -/
theorem Arena.childAt?_of_drop {arena : Arena H} {parent : Handle} {node : Node H} {index : Nat}
    {lives : List (LiveTree H)} (hNode : arena.node? parent = some node)
    (hDrop : node.children.drop index = lives.map root) :
    arena.childAt? parent index = lives.head?.map root := by
  rw [Arena.childAt?, Arena.children, hNode]
  simp only
  rw [← List.head?_drop, hDrop, List.head?_map]

end LiveMarkup.Live
