import LiveMarkup.Proofs.Live.Tidy
import Mathlib.Data.Finset.Card

/-!
# Walking down an arena

The views of what hangs below a live node, `find?`, `shape?` and `snapshot`, each
descend on their own, and each passes over handles to nothing in its own way. What
they share is the order in which they meet the nodes. `Arena.Walk` is that order: a
node before what is below it, and a child before the ones behind it, down to any
depth, and a shared child each time that it is met.

In an arena without cycles the walk ends, and no view cuts anything off.

## Main results

* `acyclic_iff_exists_rank` — an arena is without cycles iff it can be ranked, with
  ranks that are no greater than the number of its slots.
* `exists_walk` — what is ranked can be walked.
* `Walk.outline`, `Walk.shape`, `Walk.find` — what the views make of a walk.
* `views_agree` — **the views see the same tree**.
-/

namespace LiveMarkup

variable {H : Type}

/-! ## Shapes -/

namespace Shape

mutual

/-- The tags of a shape in pre-order, each with its level; the root is at the given one. -/
def tags (level : Nat) : Shape → List (Nat × String)
  | node tag children => (level, tag) :: tagsAll (level + 1) children

/-- The tags of shapes in a row. -/
def tagsAll (level : Nat) : List Shape → List (Nat × String)
  | [] => []
  | shape :: rest => tags level shape ++ tagsAll level rest

end

end Shape

namespace Live

/-! ## Walks -/

/-- A node that is met on a walk, with its handle and its level. -/
structure Visit (H : Type) where
  level : Nat
  id : Handle
  node : Node H

namespace Arena

/-- From the given handles, one after the other at the given level, the walk down the
arena meets these nodes. -/
inductive Walk (arena : Arena H) : Nat → List Handle → List (Visit H) → Prop where
  | nil (level : Nat) : Walk arena level [] []
  | gone {level : Nat} {id : Handle} {rest : List Handle} {visits : List (Visit H)}
      (hNone : arena.node? id = none) (hRest : Walk arena level rest visits) :
      Walk arena level (id :: rest) visits
  | live {level : Nat} {id : Handle} {node : Node H} {rest : List Handle}
      {below behind : List (Visit H)} (hNode : arena.node? id = some node)
      (hBelow : Walk arena (level + 1) node.children below)
      (hRest : Walk arena level rest behind) :
      Walk arena level (id :: rest) (⟨level, id, node⟩ :: (below ++ behind))

namespace Walk

variable {arena : Arena H} {level : Nat} {ids : List Handle} {visits : List (Visit H)}

/-- There is one walk. -/
theorem unique (h : arena.Walk level ids visits) {other : List (Visit H)}
    (hOther : arena.Walk level ids other) : other = visits := by
  induction h generalizing other with
  | nil level =>
      cases hOther
      rfl
  | gone hNone hRest ih =>
      cases hOther with
      | gone _ hRest' => exact ih hRest'
      | live hNode => cases hNone.symm.trans hNode
  | live hNode hBelow hRest ihBelow ihRest =>
      cases hOther with
      | gone hNone => cases hNone.symm.trans hNode
      | live hNode' hBelow' hRest' =>
          obtain rfl := Option.some.inj (hNode'.symm.trans hNode)
          rw [ihBelow hBelow', ihRest hRest']

/-- A walk meets nodes of the arena. -/
theorem node? (h : arena.Walk level ids visits) :
    ∀ visit ∈ visits, arena.node? visit.id = some visit.node := by
  induction h with
  | nil level => exact fun _ hMem => absurd hMem List.not_mem_nil
  | gone hNone hRest ih => exact ih
  | live hNode hBelow hRest ihBelow ihRest =>
      intro visit hMem
      rcases List.mem_cons.mp hMem with rfl | hMem
      · exact hNode
      · exact (List.mem_append.mp hMem).elim (ihBelow visit) (ihRest visit)

end Walk

/-! ## Ranks -/

/-- No handle is reached from its own children. -/
def Acyclic (arena : Arena H) : Prop :=
  ∀ parent, ∀ child ∈ arena.children parent, ¬ arena.Below child parent

/-- Children are ranked below their parents. -/
def Ranked (arena : Arena H) (rank : Handle → Nat) : Prop :=
  ∀ parent, ∀ child ∈ arena.children parent, rank child < rank parent

theorem Below.of_child {arena : Arena H} {parent child id : Handle}
    (hChild : child ∈ arena.children parent) (hBelow : arena.Below child id) :
    arena.Below parent id := by
  induction hBelow with
  | root => exact .child .root hChild
  | child _ hNext ih => exact .child ih hNext

theorem Ranked.le_of_below {arena : Arena H} {rank : Handle → Nat} (h : arena.Ranked rank)
    {root id : Handle} (hBelow : arena.Below root id) : rank id ≤ rank root := by
  induction hBelow with
  | root => exact Nat.le_refl _
  | child _ hChild ih => exact Nat.le_trans (Nat.le_of_lt (h _ _ hChild)) ih

theorem Ranked.acyclic {arena : Arena H} {rank : Handle → Nat} (h : arena.Ranked rank) :
    arena.Acyclic :=
  fun parent child hChild hBelow =>
    absurd (h.le_of_below hBelow) (Nat.not_le_of_lt (h parent child hChild))

open Classical in
/-- The number of slots that are reached from a handle. -/
noncomputable def reach (arena : Arena H) (id : Handle) : Nat :=
  ((Finset.range arena.slots.length).filter fun number => arena.Below id (.node number)).card

open Classical in
/-- Without cycles a child reaches less than its parent: the parent is missing. -/
theorem Acyclic.ranked {arena : Arena H} (h : arena.Acyclic) : arena.Ranked arena.reach := by
  intro parent child hChild
  obtain ⟨node, hNode, -⟩ := mem_children hChild
  obtain ⟨number, rfl, hLt⟩ := Slots.exists_lt_of_node?_eq_some hNode
  refine Finset.card_lt_card ((Finset.ssubset_iff_of_subset ?_).mpr ⟨number, ?_, ?_⟩)
  · intro other hOther
    rw [Finset.mem_filter] at hOther ⊢
    exact ⟨hOther.1, hOther.2.of_child hChild⟩
  · exact Finset.mem_filter.mpr ⟨Finset.mem_range.mpr hLt, .root⟩
  · intro hMem
    exact h _ child hChild (Finset.mem_filter.mp hMem).2

open Classical in
theorem reach_le (arena : Arena H) (id : Handle) : arena.reach id ≤ arena.slots.length :=
  (Finset.card_filter_le _ _).trans_eq (Finset.card_range _)

/-- **An arena is without cycles iff it can be ranked**, and then with small ranks. -/
theorem acyclic_iff_exists_rank {arena : Arena H} : arena.Acyclic ↔
    ∃ rank, arena.Ranked rank ∧ ∀ id, rank id ≤ arena.slots.length :=
  ⟨fun h => ⟨arena.reach, h.ranked, arena.reach_le⟩, fun ⟨_, hRanked, _⟩ => hRanked.acyclic⟩

theorem Ranked.children_lt {arena : Arena H} {rank : Handle → Nat} (h : arena.Ranked rank)
    {id : Handle} {node : Node H} (hNode : arena.node? id = some node) {bound : Nat}
    (hBound : rank id < bound + 1) : ∀ child ∈ node.children, rank child < bound := by
  intro child hMem
  have hChild : child ∈ arena.children id := by
    rw [children, hNode]
    exact hMem
  exact Nat.lt_of_lt_of_le (h id child hChild) (Nat.le_of_lt_succ hBound)

/-- What is ranked can be walked. -/
theorem exists_walk {arena : Arena H} {rank : Handle → Nat} (h : arena.Ranked rank) (bound : Nat)
    (level : Nat) (ids : List Handle) (hIds : ∀ id ∈ ids, rank id < bound) :
    ∃ visits, arena.Walk level ids visits := by
  induction bound generalizing level ids with
  | zero =>
      cases ids with
      | nil => exact ⟨[], .nil level⟩
      | cons id rest => exact absurd (hIds id List.mem_cons_self) (Nat.not_lt_zero _)
  | succ bound ihBound =>
      induction ids with
      | nil => exact ⟨[], .nil level⟩
      | cons id rest ihRest =>
          obtain ⟨behind, hRest⟩ :=
            ihRest fun other hMem => hIds other (List.mem_cons_of_mem _ hMem)
          cases hNode : arena.node? id with
          | none => exact ⟨behind, .gone hNode hRest⟩
          | some node =>
              obtain ⟨below, hBelow⟩ := ihBound (level + 1) node.children
                (h.children_lt hNode (hIds id List.mem_cons_self))
              exact ⟨_, .live hNode hBelow hRest⟩

/-! ## The views -/

/-- Where there is a handle to look at, there is some depth left to look below it. -/
theorem exists_depth {rank : Handle → Nat} {id : Handle} {rest : List Handle} {depth : Nat}
    (hDepth : ∀ other ∈ id :: rest, rank other < depth) :
    ∃ below, depth = below + 1 ∧ rank id < below + 1 ∧ ∀ other ∈ rest, rank other < below + 1 := by
  obtain ⟨hHere, hBehind⟩ := List.forall_mem_cons.mp hDepth
  obtain ⟨below, rfl⟩ := Nat.exists_eq_add_one_of_ne_zero (Nat.ne_zero_of_lt hHere)
  exact ⟨below, rfl, hHere, hBehind⟩

namespace Walk

variable {arena : Arena H} {rank : Handle → Nat} {level : Nat} {ids : List Handle}
  {visits : List (Visit H)}

/-- The nodes of an outline are those of the walk. -/
theorem outline (h : arena.Walk level ids visits) (hRanked : arena.Ranked rank) {depth : Nat}
    (hDepth : ∀ id ∈ ids, rank id < depth) :
    ids.flatMap (arena.outlineWithin depth level) =
      visits.map fun visit => (visit.level, visit.node) := by
  induction h generalizing depth with
  | nil level => rfl
  | gone hNone hRest ih =>
      obtain ⟨depth, rfl, -, hBehind⟩ := exists_depth hDepth
      rw [List.flatMap_cons, ih hBehind, outlineWithin, hNone]
      rfl
  | live hNode hBelow hRest ihBelow ihRest =>
      obtain ⟨depth, rfl, hHere, hBehind⟩ := exists_depth hDepth
      rw [List.flatMap_cons, ihRest hBehind, outlineWithin, hNode]
      simp only [ihBelow (hRanked.children_lt hNode hHere), List.map_cons, List.map_append,
        List.cons_append]

/-- The tags of a shape are those of the walk. -/
theorem shape (h : arena.Walk level ids visits) (hRanked : arena.Ranked rank) {depth : Nat}
    (hDepth : ∀ id ∈ ids, rank id < depth) :
    Shape.tagsAll level (ids.filterMap (arena.shapeWithin depth)) =
      visits.map fun visit => (visit.level, visit.node.tag) := by
  induction h generalizing depth with
  | nil level => rfl
  | gone hNone hRest ih =>
      obtain ⟨depth, rfl, -, hBehind⟩ := exists_depth hDepth
      rw [List.filterMap_cons_none (by rw [shapeWithin, hNone]), ih hBehind]
  | live hNode hBelow hRest ihBelow ihRest =>
      obtain ⟨depth, rfl, hHere, hBehind⟩ := exists_depth hDepth
      rw [List.filterMap_cons_some (by rw [shapeWithin, hNode]), Shape.tagsAll, Shape.tags,
        ihRest hBehind, ihBelow (hRanked.children_lt hNode hHere), List.map_cons,
        List.map_append, List.cons_append]

/-- The first node with a tag is the first one of the walk. -/
theorem find (h : arena.Walk level ids visits) (hRanked : arena.Ranked rank) (tag : String)
    {depth : Nat} (hDepth : ∀ id ∈ ids, rank id < depth) :
    ids.findSome? (arena.findWithin tag depth) =
      (visits.find? fun visit => visit.node.tag == tag).map Visit.id := by
  induction h generalizing depth with
  | nil level => rfl
  | gone hNone hRest ih =>
      obtain ⟨depth, rfl, -, hBehind⟩ := exists_depth hDepth
      rw [List.findSome?_cons, findWithin, hNone, ih hBehind]
  | @live level id node rest below behind hNode hBelow hRest ihBelow ihRest =>
      obtain ⟨depth, rfl, hHere, hBehind⟩ := exists_depth hDepth
      have hChildren := ihBelow (hRanked.children_lt hNode hHere)
      rw [List.findSome?_cons, findWithin, hNode, ihRest hBehind, List.find?_cons]
      cases hTag : node.tag == tag with
      | true => simp [hTag]
      | false =>
          simp only [hTag, hChildren, List.find?_append, Bool.false_eq_true, if_false]
          cases below.find? fun visit => visit.node.tag == tag <;> rfl

end Walk

/-- There is a shape iff there is a node. -/
theorem shape?_eq_none_iff (arena : Arena H) (root : Handle) :
    arena.shape? root = none ↔ arena.node? root = none := by
  rw [shape?, shapeWithin]
  cases arena.node? root <;> simp

end Arena

/-- A line begins with the level of its node and with the tag. -/
theorem Node.exists_line (level : Nat) (node : Node H) :
    ∃ rest, node.line level = String.join (List.replicate level "  ") ++ node.tag ++ rest :=
  ⟨_, String.append_assoc.trans String.append_assoc⟩

/--
**The views see the same tree.** In an arena whose child lists hold no cycle there is
one walk from a root. The shape has its tags at its levels and in its order, the
snapshot has a line for each node that it meets, which begins with its level and its
tag, and `find?` answers with the first one that has the tag; it answers with nothing
iff the root is a handle to nothing or the tag stands nowhere in the shape.
-/
theorem views_agree {arena : Arena H} (hAcyclic : arena.Acyclic) (root : Handle) :
    ∃ visits,
      (∀ other, arena.Walk 0 [root] other ↔ other = visits) ∧
      (∀ visit ∈ visits, arena.node? visit.id = some visit.node) ∧
      (arena.shape? root = none ↔ arena.node? root = none) ∧
      (arena.shape? root).elim [] (Shape.tags 0) =
        visits.map (fun visit => (visit.level, visit.node.tag)) ∧
      arena.snapshot root = String.join (visits.map fun visit => visit.node.line visit.level) ∧
      (∀ visit ∈ visits, ∃ rest, visit.node.line visit.level =
        String.join (List.replicate visit.level "  ") ++ visit.node.tag ++ rest) ∧
      ∀ tag,
        arena.find? root tag =
          (visits.find? fun visit => visit.node.tag == tag).map Visit.id ∧
        (arena.find? root tag = none ↔ arena.node? root = none ∨
          ∃ shape, arena.shape? root = some shape ∧ ∀ level, (level, tag) ∉ shape.tags 0) := by
  obtain ⟨rank, hRanked, hRank⟩ := Arena.acyclic_iff_exists_rank.mp hAcyclic
  have hDepth : ∀ id ∈ [root], rank id < arena.slots.length + 1 :=
    fun id _ => Nat.lt_succ_of_le (hRank id)
  obtain ⟨visits, hWalk⟩ := Arena.exists_walk hRanked _ 0 [root] hDepth
  have hShape : (arena.shape? root).elim [] (Shape.tags 0) =
      visits.map fun visit => (visit.level, visit.node.tag) := by
    rw [← hWalk.shape hRanked hDepth, Arena.shape?]
    simp only [List.filterMap_cons, List.filterMap_nil]
    cases arena.shapeWithin (arena.slots.length + 1) root with
    | none => rfl
    | some shape => exact (List.append_nil _).symm
  have hFind (tag : String) : arena.find? root tag =
      (visits.find? fun visit => visit.node.tag == tag).map Visit.id := by
    rw [← hWalk.find hRanked tag hDepth, Arena.find?, List.findSome?_singleton]
  refine ⟨visits, fun other => ⟨hWalk.unique, fun hEq => hEq ▸ hWalk⟩, hWalk.node?,
    arena.shape?_eq_none_iff root, hShape, ?_, fun visit _ => visit.node.exists_line visit.level,
    fun tag => ⟨hFind tag, ?_⟩⟩
  · rw [Arena.snapshot, Arena.outline, ← List.flatMap_singleton (arena.outlineWithin _ 0),
      hWalk.outline hRanked hDepth, List.map_map]
    rfl
  · rw [hFind, Option.map_eq_none_iff, List.find?_eq_none, ← arena.shape?_eq_none_iff]
    cases hSome : arena.shape? root with
    | none =>
        rw [hSome] at hShape
        obtain rfl := List.map_eq_nil_iff.mp hShape.symm
        simp
    | some shape =>
        rw [hSome] at hShape
        change shape.tags 0 = _ at hShape
        simp only [reduceCtorEq, false_or, Option.some.injEq, exists_eq_left', hShape, List.mem_map,
          Prod.mk.injEq, not_exists, not_and, beq_iff_eq]
        exact ⟨fun h _ visit hMem _ => h visit hMem, fun h visit hMem => h _ visit hMem rfl⟩

/-- A panel with a row that stands in it twice, a handle to nothing, and a leaf that
also hangs below the row, behind a handle that was never given out. -/
theorem views_agree_shared :
    let panel : Node Unit := ⟨"panel", .empty, [], [.node 1, .null, .node 2, .node 1]⟩
    let row : Node Unit := ⟨"row", .empty, [], [.node 7, .node 2]⟩
    let leaf : Node Unit := ⟨"leaf", .empty, [("click", ())], []⟩
    let arena : Arena Unit := ⟨[some panel, some row, some leaf], []⟩
    arena.Acyclic ∧
      arena.snapshot (.node 0) =
        "panel\n  row\n    leaf on:click\n  leaf on:click\n  row\n    leaf on:click\n" ∧
      (arena.shape? (.node 0)).elim [] (Shape.tags 0) =
        [(0, "panel"), (1, "row"), (2, "leaf"), (1, "leaf"), (1, "row"), (2, "leaf")] ∧
      arena.find? (.node 0) "leaf" = some (.node 2) ∧ arena.find? (.node 0) "column" = none := by
  intro panel row leaf arena
  let rank (id : Handle) : Nat :=
    if id = .node 0 then 3 else if id = .node 1 then 2 else if id = .node 2 then 1 else 0
  have hChildren : ∀ number < 3, ∀ child ∈ arena.children (.node number),
      rank child < rank (.node number) := by decide
  have hRanked : arena.Ranked rank := by
    intro parent child hChild
    obtain ⟨node, hNode, -⟩ := Arena.mem_children hChild
    obtain ⟨number, rfl, hLt⟩ := Slots.exists_lt_of_node?_eq_some hNode
    exact hChildren number hLt child hChild
  have hBare (level : Nat) : arena.Walk level leaf.children [] := .nil level
  have hLeaf (level : Nat) : arena.Walk level row.children [⟨level, .node 2, leaf⟩] :=
    .gone rfl (.live rfl (hBare _) (.nil _))
  have hRow : arena.Walk 1 [.node 1] [⟨1, .node 1, row⟩, ⟨2, .node 2, leaf⟩] :=
    .live rfl (hLeaf 2) (.nil _)
  have hPanel : arena.Walk 1 panel.children [⟨1, .node 1, row⟩, ⟨2, .node 2, leaf⟩,
      ⟨1, .node 2, leaf⟩, ⟨1, .node 1, row⟩, ⟨2, .node 2, leaf⟩] :=
    .live rfl (hLeaf 2) (.gone rfl (.live rfl (hBare 2) hRow))
  have hWalk : arena.Walk 0 [.node 0] [⟨0, .node 0, panel⟩, ⟨1, .node 1, row⟩, ⟨2, .node 2, leaf⟩,
      ⟨1, .node 2, leaf⟩, ⟨1, .node 1, row⟩, ⟨2, .node 2, leaf⟩] :=
    .live rfl hPanel (.nil _)
  obtain ⟨visits, hOne, -, -, hShape, hSnapshot, -, hFind⟩ := views_agree hRanked.acyclic (.node 0)
  obtain rfl := (hOne _).mp hWalk
  exact ⟨hRanked.acyclic, hSnapshot.trans (by decide +kernel), hShape, (hFind "leaf").1.trans rfl,
    (hFind "column").1.trans rfl⟩

end Live

end LiveMarkup
