import LiveMarkup.Proofs.Live.Tidy

/-!
# Disposing of a subtree

Child lists need not form trees: a child may be shared, may stand twice in a list,
may be gone, and may be its own ancestor. Disposing of a node takes it out of its
slot before it looks at the children, so a handle that is met again is a handle to
nothing. The recursion ends because there are fewer nodes each time that it goes
down, whatever the lists say.

`Slots.Sweeps` is the recursion itself, with the number of its calls. It is a
relation, so that its ending is a fact to be shown.

## Main results

* `Slots.sweeps_iff` — the recursion ends, in one way, and its calls are counted:
  one for each handle at the start and for each place in the child list of a node
  that it takes away.
* `Slots.node?_emptyAll_of_mem`, `Slots.node?_emptyAll_child`,
  `Slots.node?_emptyAll_of_closed` — what is reached is emptied, and nothing else.
* `dispose_exact` — **disposing of a node takes away what is reached from it**, in
  every arena.
-/

namespace LiveMarkup.Live

variable {H : Type}

namespace Slots

/-! ## What is emptied -/

theorem node?_emptyAll_of_none {slots : Slots H} (work : List Handle) {id : Handle}
    (hNone : slots.node? id = none) : (slots.emptyAll work).node? id = none :=
  (node?_emptyAll slots work id).elim (fun h => h) fun h => h.trans hNone

/-- The handles of the list are emptied. -/
theorem node?_emptyAll_of_mem {slots : Slots H} {work : List Handle} {id : Handle}
    (hMem : id ∈ work) : (slots.emptyAll work).node? id = none := by
  fun_induction slots.emptyAll work with
  | case1 slots => cases hMem
  | case2 slots first work hNone ih =>
      rcases List.mem_cons.mp hMem with rfl | hMem
      · exact node?_emptyAll_of_none work hNone
      · exact ih hMem
  | case3 slots first work node hNode ih =>
      rcases List.mem_cons.mp hMem with rfl | hMem
      · exact node?_emptyAll_of_none _ (node?_empty_self slots _)
      · exact ih (List.mem_append_right _ hMem)

/-- With a node its children are emptied. A node that is taken out early cuts none
of them off, since they are put on the list when it goes. -/
theorem node?_emptyAll_child {slots : Slots H} {work : List Handle} {id child : Handle}
    {node : Node H} (hNode : slots.node? id = some node)
    (hGone : (slots.emptyAll work).node? id = none) (hChild : child ∈ node.children) :
    (slots.emptyAll work).node? child = none := by
  fun_induction slots.emptyAll work with
  | case1 slots =>
      rw [hNode] at hGone
      cases hGone
  | case2 slots first work hNone ih => exact ih hNode hGone
  | case3 slots first work here hHere ih =>
      by_cases hFirst : id = first
      · subst hFirst
        obtain rfl : here = node := Option.some.inj (hHere.symm.trans hNode)
        exact node?_emptyAll_of_mem (List.mem_append_left _ hChild)
      · exact ih ((node?_empty_ne slots hFirst).trans hNode) hGone

/-- What is closed under child lists and holds the handles of the list, holds all
that is emptied. -/
theorem node?_emptyAll_of_closed {slots : Slots H} {work : List Handle} {P : Handle → Prop}
    (hWork : ∀ id ∈ work, P id)
    (hClosed : ∀ id node, slots.node? id = some node → P id → ∀ child ∈ node.children, P child)
    {id : Handle} (hNot : ¬ P id) : (slots.emptyAll work).node? id = slots.node? id := by
  fun_induction slots.emptyAll work with
  | case1 slots => rfl
  | case2 slots first work hNone ih =>
      exact ih (fun other hMem => hWork other (List.mem_cons_of_mem _ hMem)) hClosed
  | case3 slots first work node hNode ih =>
      have hFirst : P first := hWork first List.mem_cons_self
      have hNe : id ≠ first := fun hEq => hNot (hEq ▸ hFirst)
      rw [ih ?_ ?_, node?_empty_ne slots hNe]
      · intro other hMem
        rcases List.mem_append.mp hMem with hChild | hMem
        · exact hClosed first node hNode hFirst other hChild
        · exact hWork other (List.mem_cons_of_mem _ hMem)
      · intro other here hHere hOther
        have hNeFirst : other ≠ first := by
          rintro rfl
          rw [node?_empty_self] at hHere
          cases hHere
        exact hClosed other here ((node?_empty_ne slots hNeFirst).symm.trans hHere) hOther

/-! ## The recursion -/

/-- The places in the child lists of the nodes. -/
def linkCount (slots : Slots H) : Nat :=
  (slots.map fun slot => (slot.map fun node => node.children.length).getD 0).sum

/-- Subtrees are disposed of one after the other: `slots.Sweeps ids after calls` says
that this leads to the slots `after`, by as many calls as given. A call takes the
node out of its slot, and then makes a call for each handle in its child list. -/
inductive Sweeps : Slots H → List Handle → Slots H → Nat → Prop where
  | nil (slots : Slots H) : Sweeps slots [] slots 0
  | gone {slots after : Slots H} {id : Handle} {rest : List Handle} {calls : Nat}
      (hNone : slots.node? id = none) (hRest : Sweeps slots rest after calls) :
      Sweeps slots (id :: rest) after (calls + 1)
  | live {slots mid after : Slots H} {id : Handle} {node : Node H} {rest : List Handle}
      {inner outer : Nat} (hNode : slots.node? id = some node)
      (hBelow : Sweeps (slots.empty id) node.children mid inner)
      (hRest : Sweeps mid rest after outer) :
      Sweeps slots (id :: rest) after (inner + outer + 1)

/-- A node that is taken out of its slot takes its child list along. -/
theorem linkCount_empty {slots : Slots H} {id : Handle} {node : Node H}
    (hNode : slots.node? id = some node) :
    (slots.empty id).linkCount + node.children.length = slots.linkCount := by
  obtain ⟨number, rfl, -⟩ := exists_lt_of_node?_eq_some hNode
  rw [node?, Option.join_eq_some_iff] at hNode
  simp only [empty, linkCount]
  induction slots generalizing number with
  | nil => cases hNode
  | cons slot rest ih =>
      cases number with
      | zero =>
          obtain rfl : slot = some node := Option.some.inj hNode
          simp [Nat.add_comm]
      | succ number =>
          have hRest := ih number hNode
          simp only [List.set_cons_succ, List.map_cons, List.sum_cons]
          omega

/-- Handles may be dealt with in two goes. -/
theorem emptyAll_append (slots : Slots H) (front back : List Handle) :
    slots.emptyAll (front ++ back) = (slots.emptyAll front).emptyAll back := by
  fun_induction slots.emptyAll front with
  | case1 slots => rfl
  | case2 slots first front hNone ih => rw [List.cons_append, emptyAll, hNone, ih]
  | case3 slots first front node hNode ih =>
      rw [List.cons_append, emptyAll, hNode]
      simpa only [List.append_assoc] using ih

theorem Sweeps.split {slots after : Slots H} {front back : List Handle} {calls : Nat}
    (h : slots.Sweeps (front ++ back) after calls) :
    ∃ mid first second, slots.Sweeps front mid first ∧ mid.Sweeps back after second ∧
      calls = first + second := by
  induction front generalizing slots calls with
  | nil => exact ⟨slots, 0, calls, .nil slots, h, (Nat.zero_add calls).symm⟩
  | cons id front ih =>
      cases h with
      | gone hNone hRest =>
          obtain ⟨mid, first, second, hFront, hBack, rfl⟩ := ih hRest
          exact ⟨mid, first + 1, second, .gone hNone hFront, hBack, by omega⟩
      | live hNode hBelow hRest =>
          obtain ⟨mid, first, second, hFront, hBack, rfl⟩ := ih hRest
          exact ⟨mid, _, second, .live hNode hBelow hFront, hBack, by omega⟩

/-- A recursion that ends, ends with the slots emptied in depth-first order. -/
theorem Sweeps.eq_emptyAll {slots after : Slots H} {ids : List Handle} {calls : Nat}
    (h : slots.Sweeps ids after calls) : after = slots.emptyAll ids := by
  induction h with
  | nil slots => rw [emptyAll]
  | gone hNone hRest ih => rw [emptyAll, hNone, ih]
  | live hNode hBelow hRest ihBelow ihRest =>
      rw [emptyAll, hNode, ihRest, ihBelow, ← emptyAll_append]

/-- Each place in a child list that is gone afterwards has cost one call. -/
theorem Sweeps.calls_add {slots after : Slots H} {ids : List Handle} {calls : Nat}
    (h : slots.Sweeps ids after calls) :
    calls + after.linkCount = ids.length + slots.linkCount := by
  induction h with
  | nil slots => rfl
  | gone hNone hRest ih =>
      rw [List.length_cons]
      omega
  | live hNode hBelow hRest ihBelow ihRest =>
      have hTaken := linkCount_empty hNode
      rw [List.length_cons]
      omega

/-- The recursion ends on all slots. -/
theorem exists_sweeps (slots : Slots H) (ids : List Handle) :
    ∃ after calls, slots.Sweeps ids after calls := by
  fun_induction slots.emptyAll ids with
  | case1 slots => exact ⟨slots, 0, .nil slots⟩
  | case2 slots id rest hNone ih =>
      obtain ⟨after, calls, hRest⟩ := ih
      exact ⟨after, calls + 1, .gone hNone hRest⟩
  | case3 slots id rest node hNode ih =>
      obtain ⟨after, calls, hBoth⟩ := ih
      obtain ⟨mid, inner, outer, hBelow, hRest, -⟩ := hBoth.split
      exact ⟨after, _, .live hNode hBelow hRest⟩

/-- **The recursion ends**, in one way, and its calls are counted. -/
theorem sweeps_iff {slots after : Slots H} {ids : List Handle} {calls : Nat} :
    slots.Sweeps ids after calls ↔
      after = slots.emptyAll ids ∧ calls + after.linkCount = ids.length + slots.linkCount := by
  constructor
  · exact fun h => ⟨h.eq_emptyAll, h.calls_add⟩
  · rintro ⟨rfl, hCalls⟩
    obtain ⟨after, count, hSweeps⟩ := exists_sweeps slots ids
    obtain rfl := hSweeps.eq_emptyAll
    have hCount := hSweeps.calls_add
    obtain rfl : count = calls := by omega
    exact hSweeps

end Slots

/-! ## Arenas -/

namespace Arena

/-- What hangs below a node that is emptied is emptied. -/
theorem node?_dispose_of_below {arena : Arena H} {root id : Handle} (hBelow : arena.Below root id) :
    (arena.dispose root).node? id = none := by
  induction hBelow with
  | root => exact Slots.node?_emptyAll_of_mem List.mem_cons_self
  | child _ hChild ih =>
      obtain ⟨node, hNode, hMem⟩ := mem_children hChild
      exact Slots.node?_emptyAll_child hNode ih hMem

/-- Nothing else is. -/
theorem node?_dispose_of_not_below {arena : Arena H} {root id : Handle}
    (hNot : ¬ arena.Below root id) : (arena.dispose root).node? id = arena.node? id := by
  refine Slots.node?_emptyAll_of_closed (P := arena.Below root) ?_ ?_ hNot
  · intro other hMem
    obtain rfl := List.mem_singleton.mp hMem
    exact .root
  · intro parent node hNode hParent child hChild
    refine .child hParent ?_
    have hHere : arena.node? parent = some node := hNode
    rw [children, hHere]
    exact hChild

end Arena

/--
**Disposing of a node takes away what is reached from it**, whatever the child lists of
the arena look like. The recursion ends, in one way. It makes one call for the
node and one for each place in a child list that goes with it, and never more. What
was reached is gone, all other nodes are as they were, and the arena has one more
call on record.
-/
theorem dispose_exact (arena : Arena H) (id : Handle) :
    ∃ calls,
      (∀ after count, arena.slots.Sweeps [id] after count ↔
        after = (arena.dispose id).slots ∧ count = calls) ∧
      calls + (arena.dispose id).slots.linkCount = 1 + arena.slots.linkCount ∧
      (∀ other, arena.Below id other → (arena.dispose id).node? other = none) ∧
      (∀ other, ¬ arena.Below id other →
        (arena.dispose id).node? other = arena.node? other) ∧
      (arena.dispose id).calls = arena.calls ++ [.dispose id] := by
  obtain ⟨after, calls, hSweeps⟩ := arena.slots.exists_sweeps [id]
  obtain rfl := hSweeps.eq_emptyAll
  have hCalls := hSweeps.calls_add
  refine ⟨calls, fun after count => ?_, hCalls, fun _ => Arena.node?_dispose_of_below,
    fun _ => Arena.node?_dispose_of_not_below, rfl⟩
  rw [Slots.sweeps_iff]
  refine and_congr_right ?_
  rintro rfl
  constructor
  · intro hCount
    omega
  · rintro rfl
    exact hCalls

end LiveMarkup.Live
