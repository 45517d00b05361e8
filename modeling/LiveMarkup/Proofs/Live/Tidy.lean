import LiveMarkup.Proofs.Live.Script
import LiveMarkup.Proofs.Live.Sharing

/-!
# Requests that are safe

A toolkit does not check its requests: it will set a property of a node that is
gone, append a child that hangs elsewhere, and dispose of a subtree whose child
lists name nodes that were disposed of before. `Request.SafeIn` says of a request
and an arena that nothing of the kind happens.

Safe requests keep an arena tidy, that is: every child list names handles that
have been given out, and no handle stands in two places. And along a log of safe
requests a handle has one life, from the construction of its node to the one
`dispose` whose subtree it lies in.

## Main results

* `tidy_answer`, `Leads.tidy` — safe requests keep an arena tidy.
* `below_iff_of_holds` — what is reached from the root of a live tree is the
  live tree.
* `Leads.pairwise` — after it was disposed of a node is not there any more.
* `Leads.constructed`, `Leads.disposed_once` — a node that has come was
  constructed, and one that is gone was disposed of by one request.
* `careful_of_leads` — **a log of safe requests is careful**.
-/

namespace LiveMarkup.Live

open LiveTree (nodes nodesAll idsAll links)

variable {H : Type}

/-! ## What a request does to the nodes -/

namespace Slots

/-- Emptying slots changes no node, it only takes nodes away. -/
theorem node?_emptyAll (slots : Slots H) (work : List Handle) (id : Handle) :
    (slots.emptyAll work).node? id = none ∨
      (slots.emptyAll work).node? id = slots.node? id := by
  fun_induction slots.emptyAll work with
  | case1 slots => exact .inr rfl
  | case2 slots first work hNone ih => exact ih
  | case3 slots first work node hNode ih =>
      rcases ih with ih | ih
      · exact .inl ih
      · by_cases hFirst : id = first
        · subst hFirst
          exact .inl (ih.trans (node?_empty_self slots id))
        · exact .inr (ih.trans (node?_empty_ne slots hFirst))

@[simp] theorem length_emptyAll (slots : Slots H) (work : List Handle) :
    (slots.emptyAll work).length = slots.length := by
  fun_induction slots.emptyAll work with
  | case1 slots => rfl
  | case2 slots first work hNone ih => exact ih
  | case3 slots first work node hNode ih => rw [ih, length_empty]

@[simp] theorem length_alter (slots : Slots H) (id : Handle) (f : Node H → Node H) :
    (slots.alter id f).length = slots.length := by
  cases id <;> simp [alter]

/-- A change of one node takes no node away and brings none. -/
theorem isSome_node?_alter (slots : Slots H) (id other : Handle) (f : Node H → Node H) :
    ((slots.alter id f).node? other).isSome = (slots.node? other).isSome := by
  by_cases hEq : other = id
  · rw [hEq, node?_alter_self, Option.isSome_map]
  · rw [node?_alter_ne slots f hEq]

end Slots

namespace Arena

/-- A handle that has been given out. -/
def Gave (arena : Arena H) (id : Handle) : Prop :=
  ∃ number, id = .node number ∧ number < arena.slots.length

theorem Gave.ne_fresh {arena : Arena H} {id : Handle} (h : arena.Gave id) : id ≠ arena.fresh := by
  obtain ⟨number, rfl, hLt⟩ := h
  intro hEq
  cases hEq
  omega

theorem gave_of_isSome {arena : Arena H} {id : Handle} (h : (arena.node? id).isSome = true) :
    arena.Gave id := by
  obtain ⟨node, hNode⟩ := Option.isSome_iff_exists.mp h
  exact Slots.exists_lt_of_node?_eq_some hNode

/-- No handle is taken back. -/
theorem length_le_answer (arena : Arena H) (request : Request H) :
    arena.slots.length ≤ (arena.answer request).2.slots.length := by
  cases request with
  | construct tag => simp [answer, construct]
  | removeChildAt parent index =>
      rw [answer, removeChildAt]
      split <;> simp
  | childAt parent index => exact Nat.le_refl _
  | _ => simp [answer, setProperty, addChild, attachHandler, dispose]

theorem Gave.answer {arena : Arena H} {id : Handle} (h : arena.Gave id) (request : Request H) :
    (arena.answer request).2.Gave id := by
  obtain ⟨number, hId, hLt⟩ := h
  exact ⟨number, hId, hLt.trans_le (arena.length_le_answer request)⟩

/-- **A node that has come was constructed.** -/
theorem isSome_node?_of_answer {arena : Arena H} {request : Request H} {id : Handle}
    (h : ((arena.answer request).2.node? id).isSome = true) :
    (arena.node? id).isSome = true ∨ (∃ tag, request = .construct tag) ∧ id = arena.fresh := by
  cases request with
  | construct tag =>
      by_cases hFresh : id = arena.fresh
      · exact .inr ⟨⟨tag, rfl⟩, hFresh⟩
      · rw [answer, node?_construct_ne arena tag hFresh] at h
        exact .inl h
  | childAt parent index => exact .inl h
  | removeChildAt parent index =>
      rw [answer, removeChildAt] at h
      split at h
      · exact .inl h
      · exact .inl ((Slots.isSome_node?_alter _ _ _ _).symm.trans h)
  | dispose root =>
      rcases Slots.node?_emptyAll arena.slots [root] id with hNone | hSame
      · have hGone : (arena.answer (.dispose root)).2.node? id = none := hNone
        rw [hGone] at h
        cases h
      · exact .inl ((congrArg Option.isSome hSame).symm.trans h)
  | _ => exact .inl ((Slots.isSome_node?_alter _ _ _ _).symm.trans h)

/-- **A node that is gone was disposed of.** -/
theorem isSome_node?_answer {arena : Arena H} {request : Request H} {id : Handle}
    (h : (arena.node? id).isSome = true) :
    ((arena.answer request).2.node? id).isSome = true ∨ ∃ root, request = .dispose root := by
  cases request with
  | construct tag =>
      have hNe := (gave_of_isSome h).ne_fresh
      exact .inl ((congrArg Option.isSome (node?_construct_ne arena tag hNe)).trans h)
  | childAt parent index => exact .inl h
  | removeChildAt parent index =>
      rw [answer, removeChildAt]
      split
      · exact .inl h
      · exact .inl ((Slots.isSome_node?_alter _ _ _ _).trans h)
  | dispose root => exact .inr ⟨root, rfl⟩
  | _ => exact .inl ((Slots.isSome_node?_alter _ _ _ _).trans h)

/-! ## What a request does to the child lists -/

theorem children_eq (arena : Arena H) (id : Handle) :
    arena.children id = ((arena.node? id).map Node.children).getD [] := by
  rw [children]
  cases arena.node? id <;> rfl

theorem children_congr {arena arena' : Arena H} {id : Handle}
    (h : arena'.node? id = arena.node? id) : arena'.children id = arena.children id := by
  rw [children_eq, children_eq, h]

theorem children_alter_ne (arena : Arena H) {id other : Handle} (f : Node H → Node H)
    (call : Call H) (h : other ≠ id) :
    (arena.served (arena.slots.alter id f) call).children other = arena.children other :=
  children_congr (Slots.node?_alter_ne arena.slots f h)

theorem children_alter_self (arena : Arena H) (id : Handle) (f : Node H → Node H)
    (call : Call H) : (arena.served (arena.slots.alter id f) call).children id =
      ((arena.node? id).map fun node => (f node).children).getD [] := by
  have hNode : (arena.served (arena.slots.alter id f) call).node? id = (arena.node? id).map f :=
    Slots.node?_alter_self arena.slots id f
  rw [children_eq, hNode, Option.map_map]
  rfl

/-- A change that leaves the child list of its node alone leaves all child lists alone. -/
theorem children_alter_of_same (arena : Arena H) (id : Handle) (f : Node H → Node H)
    (call : Call H) (hSame : ∀ node, (f node).children = node.children) (other : Handle) :
    (arena.served (arena.slots.alter id f) call).children other = arena.children other := by
  by_cases hEq : other = id
  · subst hEq
    rw [children_alter_self, children_eq]
    simp only [hSame]
  · exact arena.children_alter_ne f call hEq

/-- An added child stands behind the children of its parent. -/
theorem children_addChild {arena : Arena H} {parent : Handle}
    (h : (arena.node? parent).isSome = true) (child other : Handle) :
    (arena.addChild parent child).children other =
      if other = parent then arena.children parent ++ [child] else arena.children other := by
  split
  · rename_i hEq
    subst hEq
    obtain ⟨node, hNode⟩ := Option.isSome_iff_exists.mp h
    rw [addChild, children_alter_self, children_eq, hNode]
    rfl
  · rename_i hNe
    exact arena.children_alter_ne _ _ hNe

/-- No request but that for a child makes a child list longer. -/
theorem children_answer_sublist (arena : Arena H) {request : Request H}
    (h : ∀ parent child, request ≠ .addChild parent child) (id : Handle) :
    ((arena.answer request).2.children id).Sublist (arena.children id) := by
  have hSame {before after : List Handle} (hEq : after = before) : after.Sublist before :=
    hEq ▸ .refl after
  cases request with
  | construct tag =>
      by_cases hFresh : id = arena.fresh
      · subst hFresh
        have hBare : (arena.answer (.construct tag)).2.children arena.fresh = [] :=
          (children_eq _ _).trans
            (congrArg (fun node => (node.map Node.children).getD []) (arena.node?_construct_self tag))
        rw [hBare]
        exact List.nil_sublist _
      · exact hSame (children_congr (arena.node?_construct_ne tag hFresh))
  | setProperty other name value =>
      refine hSame (arena.children_alter_of_same other _ _ ?_ id)
      exact fun node => rfl
  | addChild parent child => exact absurd rfl (h parent child)
  | removeChildAt parent index =>
      rw [answer, removeChildAt]
      split
      · exact .refl _
      · by_cases hEq : id = parent
        · subst hEq
          rw [children_alter_self, children_eq]
          cases arena.node? id with
          | none => exact .refl _
          | some node => exact List.eraseIdx_sublist node.children index
        · exact hSame (arena.children_alter_ne _ _ hEq)
  | attachHandler other event handler =>
      refine hSame (arena.children_alter_of_same other _ _ ?_ id)
      exact fun node => rfl
  | childAt parent index => exact .refl _
  | dispose root =>
      rcases Slots.node?_emptyAll arena.slots [root] id with hNone | hSlot
      · have hGone : (arena.answer (.dispose root)).2.node? id = none := hNone
        rw [children_eq, hGone]
        exact List.nil_sublist _
      · have hKept : (arena.answer (.dispose root)).2.node? id = arena.node? id := hSlot
        exact hSame (children_congr hKept)

end Arena

/-! ## Safe requests -/

/-- The handles of nodes that a request reads or changes. -/
def Request.touched : Request H → List Handle
  | construct _ => []
  | setProperty id _ _ | attachHandler id _ _ | dispose id => [id]
  | removeChildAt parent _ | childAt parent _ => [parent]
  | addChild parent child => [parent, child]

/-- A request that can be made without harm. What is to be disposed of is a live
tree with all its nodes, and a child to be appended hangs nowhere. -/
def Request.SafeIn (arena : Arena H) : Request H → Prop
  | construct _ => True
  | setProperty id _ _ | attachHandler id _ _ => (arena.node? id).isSome = true
  | removeChildAt parent _ | childAt parent _ => (arena.node? parent).isSome = true
  | addChild parent child => (arena.node? parent).isSome = true ∧
      (arena.node? child).isSome = true ∧ ∀ other, child ∉ arena.children other
  | dispose id => ∃ tree : LiveTree H, tree.root = id ∧ arena.Holds tree.nodes ∧ tree.ids.Nodup

/-- What a safe request touches is there. -/
theorem Request.SafeIn.isSome_node? {arena : Arena H} {request : Request H}
    (h : request.SafeIn arena) {id : Handle} (hMem : id ∈ request.touched) :
    (arena.node? id).isSome = true := by
  cases request with
  | construct tag => cases hMem
  | addChild parent child =>
      rcases List.mem_pair.mp hMem with rfl | rfl
      · exact h.1
      · exact h.2.1
  | dispose root =>
      obtain ⟨tree, hRoot, hHolds, -⟩ := h
      rw [List.mem_singleton.mp hMem, ← hRoot]
      exact tree.isSome_node?_of_holds hHolds tree.root_mem_ids
  | _ =>
      rw [List.mem_singleton.mp hMem]
      exact h

/-- An arena whose child lists name handles that have been given out, none of
them in two places. -/
structure Arena.Tidy (arena : Arena H) : Prop where
  gave : ∀ parent, ∀ id ∈ arena.children parent, arena.Gave id
  nodup : ∀ parent, (arena.children parent).Nodup
  parent : ∀ parent other id, id ∈ arena.children parent → id ∈ arena.children other →
    parent = other

namespace Arena

theorem tidy_empty : (empty : Arena H).Tidy := by
  have hNone (id : Handle) : (empty : Arena H).children id = [] := by
    cases id <;> rfl
  exact
    { gave := fun parent id hMem => by rw [hNone] at hMem; cases hMem
      nodup := fun parent => by rw [hNone]; exact List.nodup_nil
      parent := fun parent other id hMem => by rw [hNone] at hMem; cases hMem }

/-- **Safe requests keep an arena tidy.** -/
theorem tidy_answer {arena : Arena H} {request : Request H} (h : arena.Tidy)
    (hSafe : request.SafeIn arena) : (arena.answer request).2.Tidy := by
  by_cases hAdd : ∀ parent child, request ≠ .addChild parent child
  · have hSub := arena.children_answer_sublist hAdd
    exact
      { gave := fun parent id hMem => (h.gave parent id ((hSub parent).subset hMem)).answer request
        nodup := fun parent => (h.nodup parent).sublist (hSub parent)
        parent := fun parent other id hMem hMem' =>
          h.parent parent other id ((hSub parent).subset hMem) ((hSub other).subset hMem') }
  · simp only [not_forall, not_not] at hAdd
    obtain ⟨parent, child, rfl⟩ := hAdd
    obtain ⟨hParent, hChild, hFree⟩ := hSafe
    have hChildren (other : Handle) : (arena.answer (.addChild parent child)).2.children other =
        if other = parent then arena.children parent ++ [child] else arena.children other :=
      children_addChild hParent child other
    -- A handle in a list is the new child, which is in no other, or it was there before.
    have hMem {other id : Handle} (hIn : id ∈ (arena.answer (.addChild parent child)).2.children other) :
        id ∈ arena.children other ∨ id = child ∧ other = parent := by
      rw [hChildren] at hIn
      split at hIn
      · rename_i hEq
        rw [List.mem_append, List.mem_singleton] at hIn
        exact hIn.imp (hEq ▸ ·) (⟨·, hEq⟩)
      · exact .inl hIn
    exact
      { gave := fun other id hIn => by
          refine Gave.answer ?_ _
          rcases hMem hIn with hOld | ⟨rfl, -⟩
          · exact h.gave other id hOld
          · exact gave_of_isSome hChild
        nodup := fun other => by
          rw [hChildren]
          split
          · refine List.nodup_append.mpr ⟨h.nodup parent, List.nodup_singleton child, ?_⟩
            rintro id hIn _ hLast rfl
            exact hFree parent (List.mem_singleton.mp hLast ▸ hIn)
          · exact h.nodup other
        parent := fun first second id hFirst hSecond => by
          rcases hMem hFirst with hFirst | ⟨rfl, rfl⟩ <;> rcases hMem hSecond with hSecond | hSecond
          · exact h.parent first second id hFirst hSecond
          · exact absurd (hSecond.1 ▸ hFirst) (hFree first)
          · exact absurd hSecond (hFree second)
          · exact hSecond.2.symm }

end Arena

/-! ## What is reached from the root of a live tree -/

section Below

variable {arena : Arena H}

mutual

theorem below_of_mem_ids : (tree : LiveTree H) → (top : Handle) → arena.Holds tree.nodes →
    arena.Below top tree.root → ∀ id ∈ tree.ids, arena.Below top id
  | .node root tag properties handlers children, top, hHolds, hTop, id, hMem => by
      rw [nodes, Arena.Holds, Slots.holds_cons] at hHolds
      rw [LiveTree.ids_node, List.mem_cons] at hMem
      rcases hMem with rfl | hMem
      · exact hTop
      · refine below_of_mem_idsAll children top hHolds.2 (fun child hChild => ?_) id hMem
        refine .child hTop ?_
        have hNode : arena.node? root = some _ := hHolds.1
        rw [LiveTree.root, Arena.children, hNode]
        exact List.mem_map_of_mem hChild

theorem below_of_mem_idsAll : (trees : List (LiveTree H)) → (top : Handle) →
    arena.Holds (nodesAll trees) → (∀ tree ∈ trees, arena.Below top tree.root) →
    ∀ id ∈ idsAll trees, arena.Below top id
  | [], _, _, _, _, hMem => absurd hMem List.not_mem_nil
  | tree :: rest, top, hHolds, hTop, id, hMem => by
      rw [nodesAll, Arena.Holds, Slots.holds_append] at hHolds
      rw [LiveTree.idsAll_cons, List.mem_append] at hMem
      rcases hMem with hMem | hMem
      · exact below_of_mem_ids tree top hHolds.1 (hTop tree List.mem_cons_self) id hMem
      · exact below_of_mem_idsAll rest top hHolds.2
          (fun other hOther => hTop other (List.mem_cons_of_mem _ hOther)) id hMem

end

/-- A child of one of the nodes is listed among them. -/
theorem mem_links_of_holds {entries : List (Handle × Node H)} (hHolds : arena.Holds entries)
    {parent id : Handle} (hParent : parent ∈ entries.map Prod.fst)
    (hMem : id ∈ arena.children parent) : id ∈ links entries := by
  obtain ⟨entry, hEntry, rfl⟩ := List.mem_map.mp hParent
  have hNode : arena.node? entry.1 = some entry.2 := hHolds entry hEntry
  rw [Arena.children, hNode] at hMem
  exact List.mem_flatMap.mpr ⟨entry, hEntry, hMem⟩

/-- **What is reached from the root of a live tree is the live tree.** -/
theorem below_iff_of_holds {tree : LiveTree H} (hHolds : arena.Holds tree.nodes)
    (hNodup : tree.ids.Nodup) {id : Handle} : arena.Below tree.root id ↔ id ∈ tree.ids := by
  refine ⟨fun hBelow => ?_, below_of_mem_ids tree tree.root hHolds .root id⟩
  induction hBelow with
  | root => exact tree.root_mem_ids
  | child _ hChild ih =>
      exact (LiveTree.mem_ids_of_mem_links hNodup (mem_links_of_holds hHolds ih hChild)).1

end Below

/-! ## Logs of safe requests -/

namespace Moment

/-- The request of the moment is safe. -/
def Safe (moment : Moment H) : Prop :=
  moment.request.SafeIn moment.arena

/-- The request of the moment constructs the node behind a handle. -/
def Constructs (moment : Moment H) (id : Handle) : Prop :=
  (∃ tag, moment.request = .construct tag) ∧ id = moment.arena.fresh

/-- The request of the moment disposes of a subtree in which a handle is listed. -/
def Disposes (moment : Moment H) (id : Handle) : Prop :=
  ∃ root, moment.request = .dispose root ∧ moment.arena.Below root id

variable {moment : Moment H} {id : Handle}

/-- What a safe request disposes of is the nodes of a live tree. -/
theorem Safe.disposes_iff (hSafe : moment.Safe) : moment.Disposes id ↔
    (moment.arena.node? id).isSome = true ∧ moment.after.node? id = none := by
  obtain ⟨arena, request⟩ := moment
  constructor
  · rintro ⟨root, hRequest, hBelow⟩
    obtain rfl : request = .dispose root := hRequest
    obtain ⟨tree, rfl, hHolds, hNodup⟩ := hSafe
    have hMem := (below_iff_of_holds hHolds hNodup).mp hBelow
    exact ⟨tree.isSome_node?_of_holds hHolds hMem,
      (Arena.redrawn_dispose arena tree hHolds hNodup).empties id hMem (by simp)⟩
  · rintro ⟨hThere, hGone⟩
    rcases Arena.isSome_node?_answer hThere with hKept | ⟨root, hRequest⟩
    · have hNone : (arena.answer request).2.node? id = none := hGone
      rw [hNone] at hKept
      cases hKept
    · obtain rfl : request = .dispose root := hRequest
      obtain ⟨tree, rfl, hHolds, hNodup⟩ := hSafe
      have hRedrawn := Arena.redrawn_dispose arena tree hHolds hNodup
      refine ⟨tree.root, rfl, (below_iff_of_holds hHolds hNodup).mpr ?_⟩
      refine Classical.byContradiction fun hNot => ?_
      have hSame : (arena.dispose tree.root).node? id = arena.node? id :=
        hRedrawn.keeps id hNot (by simp)
      have hNone : (arena.dispose tree.root).node? id = none := hGone
      rw [← hSame, hNone] at hThere
      cases hThere

end Moment

namespace Leads

variable {start stop : Arena H} {log front back : List (Moment H)} {moment : Moment H}
  {id : Handle}

theorem split (h : Leads start (front ++ moment :: back) stop) :
    Leads start front moment.arena ∧ Leads moment.after back stop := by
  induction front generalizing start with
  | nil =>
      cases h with
      | cons _ hRest => exact ⟨.nil _, hRest⟩
  | cons first front ih =>
      cases h with
      | cons _ hRest =>
          obtain ⟨hFront, hBack⟩ := ih hRest
          exact ⟨.cons first hFront, hBack⟩

/-- **Safe requests keep an arena tidy.** -/
theorem tidy (h : Leads start log stop) (hSafe : ∀ moment ∈ log, moment.Safe)
    (hTidy : start.Tidy) : stop.Tidy := by
  induction h with
  | nil => exact hTidy
  | cons moment _ ih =>
      rw [List.forall_mem_cons] at hSafe
      exact ih hSafe.2 (Arena.tidy_answer hTidy hSafe.1)

/-- **A node that has come was constructed.** -/
theorem constructed (h : Leads start log stop) (hThere : (stop.node? id).isSome = true) :
    (start.node? id).isSome = true ∨ ∃ moment ∈ log, moment.Constructs id := by
  induction h with
  | nil => exact .inl hThere
  | cons moment _ ih =>
      rcases ih hThere with hAfter | ⟨later, hLater, hConstructs⟩
      · rcases Arena.isSome_node?_of_answer hAfter with hBefore | hConstructs
        · exact .inl hBefore
        · exact .inr ⟨moment, List.mem_cons_self, hConstructs⟩
      · exact .inr ⟨later, List.mem_cons_of_mem _ hLater, hConstructs⟩

/-- **A node that is gone does not come back.** -/
theorem stays_gone (h : Leads start log stop) (hGave : start.Gave id)
    (hGone : start.node? id = none) : stop.node? id = none := by
  induction h with
  | nil => exact hGone
  | cons moment _ ih =>
      refine ih (hGave.answer moment.request) ?_
      refine Option.not_isSome_iff_eq_none.mp fun hThere => ?_
      rcases Arena.isSome_node?_of_answer hThere with hBefore | ⟨-, hFresh⟩
      · rw [hGone] at hBefore
        cases hBefore
      · exact hGave.ne_fresh hFresh

/-- **A node that is gone was disposed of.** -/
theorem disposed (h : Leads start log stop) (hSafe : ∀ moment ∈ log, moment.Safe)
    (hThere : (start.node? id).isSome = true) (hGone : stop.node? id = none) :
    ∃ moment ∈ log, moment.Disposes id := by
  induction h with
  | nil =>
      rw [hGone] at hThere
      cases hThere
  | cons moment _ ih =>
      rw [List.forall_mem_cons] at hSafe
      cases hAfter : moment.after.node? id with
      | none =>
          exact ⟨moment, List.mem_cons_self, hSafe.1.disposes_iff.mpr ⟨hThere, hAfter⟩⟩
      | some node =>
          obtain ⟨later, hLater, hDisposes⟩ := ih hSafe.2 (by rw [hAfter]; rfl) hGone
          exact ⟨later, List.mem_cons_of_mem _ hLater, hDisposes⟩

/-- **What was disposed of is not there any more** at any later moment. -/
theorem pairwise (h : Leads start log stop) (hSafe : ∀ moment ∈ log, moment.Safe) :
    log.Pairwise fun earlier later =>
      ∀ id, earlier.Disposes id → later.arena.node? id = none := by
  induction h with
  | nil => exact .nil
  | cons moment hRest ih =>
      rw [List.forall_mem_cons] at hSafe
      refine List.pairwise_cons.mpr ⟨fun later hLater id hDisposes => ?_, ih hSafe.2⟩
      obtain ⟨hThere, hGone⟩ := hSafe.1.disposes_iff.mp hDisposes
      obtain ⟨front, back, rfl⟩ := List.append_of_mem hLater
      have hGave := (Arena.gave_of_isSome hThere).answer moment.request
      exact hRest.split.1.stays_gone hGave hGone

/-- **No two safe requests dispose of one node.** -/
theorem once (h : Leads start log stop) (hSafe : ∀ moment ∈ log, moment.Safe) :
    log.Pairwise fun earlier moment => ∀ id, moment.Disposes id → ¬ earlier.Disposes id := by
  refine (h.pairwise hSafe).imp_of_mem fun {earlier moment} _ hMem hGone id hDisposes hEarlier => ?_
  have hThere := ((hSafe moment hMem).disposes_iff.mp hDisposes).1
  rw [hGone id hEarlier] at hThere
  cases hThere

/-- **A node that is gone was disposed of by one request**, and by no other. -/
theorem disposed_once (h : Leads start log stop) (hSafe : ∀ moment ∈ log, moment.Safe)
    (hThere : (start.node? id).isSome = true) (hGone : stop.node? id = none) :
    ∃ front moment back, log = front ++ moment :: back ∧ moment.Disposes id ∧
      ∀ other ∈ front ++ back, ¬ other.Disposes id := by
  obtain ⟨moment, hMem, hDisposes⟩ := h.disposed hSafe hThere hGone
  have hOnce := h.once hSafe
  obtain ⟨front, back, rfl⟩ := List.append_of_mem hMem
  refine ⟨front, moment, back, rfl, hDisposes, fun other hOther => ?_⟩
  rw [List.pairwise_append, List.pairwise_cons] at hOnce
  rcases List.mem_append.mp hOther with hFront | hBack
  · exact hOnce.2.2 other hFront moment List.mem_cons_self id hDisposes
  · exact fun hLater => hOnce.2.1.1 other hBack id hLater hDisposes

end Leads

/-- A log in which no node is used after it was disposed of, and none is disposed
of twice. -/
structure Careful (log : List (Moment H)) : Prop where
  /-- What a request touches is there. -/
  there : ∀ moment ∈ log, ∀ id ∈ moment.request.touched, (moment.arena.node? id).isSome = true
  /-- It was constructed by an earlier request. -/
  constructed : ∀ front moment back, log = front ++ moment :: back →
    ∀ id ∈ moment.request.touched, ∃ earlier ∈ front, earlier.Constructs id
  /-- No earlier request has disposed of it, alone or inside of a subtree. -/
  alive : log.Pairwise fun earlier moment =>
    ∀ id ∈ moment.request.touched, ¬ earlier.Disposes id
  /-- A child that is appended is in no child list. -/
  free : ∀ moment ∈ log, ∀ parent child, moment.request = .addChild parent child →
    ∀ other, child ∉ moment.arena.children other
  /-- No two requests dispose of one node, alone or inside of a subtree. -/
  once : log.Pairwise fun earlier moment => ∀ id, moment.Disposes id → ¬ earlier.Disposes id

/-- **A log of safe requests is careful.** -/
theorem careful_of_leads {log : List (Moment H)} {stop : Arena H} (h : Leads .empty log stop)
    (hSafe : ∀ moment ∈ log, moment.Safe) : Careful log where
  there := fun moment hMem _ hTouched => (hSafe moment hMem).isSome_node? hTouched
  constructed := by
    rintro front moment back rfl id hTouched
    have hThere := (hSafe moment (by simp)).isSome_node? hTouched
    rcases h.split.1.constructed hThere with hStart | hConstructed
    · obtain ⟨number, -, hLt⟩ := Arena.gave_of_isSome hStart
      exact absurd hLt (Nat.not_lt_zero number)
    · exact hConstructed
  alive := by
    refine (h.pairwise hSafe).imp_of_mem fun {earlier moment} _ hMem hGone id hTouched hDisposes => ?_
    have hThere := (hSafe moment hMem).isSome_node? hTouched
    rw [hGone id hDisposes] at hThere
    cases hThere
  free := by
    rintro ⟨arena, request⟩ hMem parent child hRequest
    obtain rfl : request = .addChild parent child := hRequest
    exact (hSafe _ hMem).2.2
  once := h.once hSafe

end LiveMarkup.Live
