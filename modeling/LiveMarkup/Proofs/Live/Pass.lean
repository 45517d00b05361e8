import LiveMarkup.Proofs.Live.Turn

/-!
# A pass does what its turn says

The functions of a pass work on an arena, on lists of edits and on counters.
Here each of them gets its account: which live trees it shows, what it takes
out, which calls it makes and what it counts. The accounts are those of
`LiveTree.mount` and `LiveTree.meet`, so after this module a pass need not be
followed through an arena again.

The list of edits is known at every index: `Edits.needed before after index`
are the edits that bring the list `before` to `after`, as far as the first
`index` positions tell.

## Main results

* `settle_some` — one position keeps the edits the needed ones.
* `turned_applyEdits` — the needed edits lead from the old list to the new one.
* `turned_create` — constructing a tree mounts it.
* `turned_meet` — **a pass over a live tree is its turn**.
-/

namespace LiveMarkup.Live

open Arena (Redrawn redrawn_construct redrawn_dispose
  redrawn_addChild redrawn_alter patchCalls)
open LiveTree (root nodesAll idsAll idsAll_cons mount mountAll mountCalls fillCalls rowCalls
  keptLength editCalls editStats FollowsAll)

variable {H : Type}

namespace Arena.Redrawn

variable {before mid after : Arena H} {gone gone' : List Handle}
  {shown shown' : List (Handle × Node H)} {fresh fresh' : Nat} {made made' : List (Call H)}

/-- Calls one after the other, where the later ones show all the nodes that the
earlier ones show. -/
theorem overlaid (h : before.Redrawn mid gone shown fresh made)
    (h' : mid.Redrawn after gone' shown' fresh' made')
    (hShown : ∀ id ∈ shown.map Prod.fst, id ∈ shown'.map Prod.fst) :
    before.Redrawn after (gone ++ gone') shown' (fresh + fresh') (made ++ made') where
  shows := h'.shows
  empties := by
    intro id hMem hNot
    by_cases hLater : id ∈ gone'
    · exact h'.empties id hLater hNot
    · rw [h'.keeps id hLater hNot]
      exact h.empties id ((List.mem_append.mp hMem).resolve_right hLater)
        (fun hIn => hNot (hShown id hIn))
  keeps := by
    intro id hMem hNot
    rw [List.mem_append, not_or] at hMem
    rw [h'.keeps id hMem.2 hNot, h.keeps id hMem.1 fun hIn => hNot (hShown id hIn)]
  length := by rw [h'.length, h.length, Nat.add_assoc]
  calls := by rw [h'.calls, h.calls, List.append_assoc]

/-- The order of the nodes that are shown does not matter. -/
theorem perm (h : before.Redrawn after gone shown fresh made) (hPerm : shown.Perm shown') :
    before.Redrawn after gone shown' fresh made where
  shows := fun entry hMem => h.shows entry (hPerm.mem_iff.mpr hMem)
  empties := fun id hMem hNot => h.empties id hMem fun hIn =>
    hNot ((hPerm.map Prod.fst).mem_iff.mp hIn)
  keeps := fun id hMem hNot => h.keeps id hMem fun hIn =>
    hNot ((hPerm.map Prod.fst).mem_iff.mp hIn)
  length := h.length
  calls := h.calls

/-- What is shown may also be listed as gone. -/
theorem gone_mono (h : before.Redrawn after gone shown fresh made) (hSub : gone ⊆ gone')
    (hShown : ∀ id ∈ gone', id ∉ gone → id ∈ shown.map Prod.fst) :
    before.Redrawn after gone' shown fresh made where
  shows := h.shows
  empties := fun id hMem hNot => h.empties id
    (Classical.byContradiction fun hOut => hNot (hShown id hMem hOut)) hNot
  keeps := fun id hMem hNot => h.keeps id (fun hIn => hMem (hSub hIn)) hNot
  length := h.length
  calls := h.calls

end Arena.Redrawn

namespace Pass

/-- An account of what was done in a pass: what became of the arena, and what
was counted. -/
structure Turned (before after : Pass H) (gone : List Handle) (shown : List (Handle × Node H))
    (made : List (Call H)) (spent : Stats) : Prop where
  arena : before.arena.Redrawn after.arena gone shown spent.created made
  stats : after.stats = before.stats + spent

namespace Turned

variable {before mid after : Pass H} {gone gone' : List Handle}
  {shown shown' : List (Handle × Node H)} {made made' : List (Call H)} {spent spent' : Stats}

theorem refl (pass : Pass H) : pass.Turned pass [] [] [] .zero :=
  ⟨.refl pass.arena, rfl⟩

theorem append (h : before.Turned mid gone shown made spent)
    (h' : mid.Turned after gone' shown' made' spent')
    (hGone : ∀ id ∈ shown.map Prod.fst, id ∉ gone')
    (hShown : ∀ id ∈ shown.map Prod.fst, id ∉ shown'.map Prod.fst) :
    before.Turned after (gone ++ gone') (shown ++ shown') (made ++ made') (spent + spent') :=
  ⟨h.arena.append h'.arena hGone hShown, by rw [h'.stats, h.stats, Stats.add_assoc]⟩

theorem overlaid (h : before.Turned mid gone shown made spent)
    (h' : mid.Turned after gone' shown' made' spent')
    (hShown : ∀ id ∈ shown.map Prod.fst, id ∈ shown'.map Prod.fst) :
    before.Turned after (gone ++ gone') shown' (made ++ made') (spent + spent') :=
  ⟨h.arena.overlaid h'.arena hShown, by rw [h'.stats, h.stats, Stats.add_assoc]⟩

/-- A further change of the first node that is shown. -/
theorem retouch {id : Handle} {node node' : Node H} (hSpent : spent'.created = 0)
    (h : before.Turned mid gone ((id, node) :: shown) made spent)
    (h' : mid.Turned after [] [(id, node')] made' spent') (hApart : id ∉ shown.map Prod.fst) :
    before.Turned after gone ((id, node') :: shown) (made ++ made') (spent + spent') := by
  have hTouch : mid.arena.Redrawn after.arena [] [(id, node')] 0 made' := by
    rw [← hSpent]
    exact h'.arena
  refine ⟨?_, by rw [h'.stats, h.stats, Stats.add_assoc]⟩
  rw [Stats.created_add, hSpent]
  exact h.arena.retouch hTouch hApart

theorem perm (h : before.Turned after gone shown made spent) (hPerm : shown.Perm shown') :
    before.Turned after gone shown' made spent :=
  ⟨h.arena.perm hPerm, h.stats⟩

end Turned

theorem turned_dispose (pass : Pass H) (tree : LiveTree H) (hHolds : pass.arena.Holds tree.nodes)
    (hNodup : tree.ids.Nodup) :
    pass.Turned (pass.dispose tree.root) tree.ids [] [.dispose tree.root] ⟨0, 0, 1, 0, 0⟩ :=
  ⟨redrawn_dispose pass.arena tree hHolds hNodup, rfl⟩

/-! ## Fresh positions -/

/-- The pass when a node has been constructed, before its children are. -/
def begun (pass : Pass H) (tag : String) (properties : Properties H) : Pass H :=
  { pass.remark (.construct tag) with
    arena := initialise (pass.arena.construct tag).2 pass.arena.fresh properties
    stats := pass.stats + ⟨1, 0, 0, 0, 0⟩ }

theorem create_node (pass : Pass H) (tag : String) (properties : Properties H)
    (children : List (VirtualTree H)) :
    create pass (.node tag properties children) =
      (pass.arena.fresh, createAll (pass.begun tag properties) pass.arena.fresh children) := by
  rw [create]
  rfl

theorem turned_begun (pass : Pass H) (tag : String) (properties : Properties H) :
    pass.Turned (pass.begun tag properties) []
      [(pass.arena.fresh, ⟨tag, Properties.empty.overlay properties, properties.handlers, []⟩)]
      (.construct pass.arena.fresh tag :: Arena.initialCalls pass.arena.fresh properties)
      ⟨1, 0, 0, 0, 0⟩ := by
  have hBare := redrawn_construct pass.arena tag
  have hDressed := redrawn_initialise (pass.arena.construct tag).2 hBare.node?_first properties
  exact ⟨hBare.retouch hDressed (by simp), rfl⟩

/-- The pass when a child has been constructed and appended to its parent. -/
def filled (pass : Pass H) (parent : Handle) (tree : VirtualTree H) : Pass H :=
  { (create pass tree).2 with
    arena := (create pass tree).2.arena.addChild parent (create pass tree).1 }

theorem createAll_cons (pass : Pass H) (parent : Handle) (tree : VirtualTree H)
    (rest : List (VirtualTree H)) :
    createAll pass parent (tree :: rest) = createAll (pass.filled parent tree) parent rest := by
  rw [createAll]
  rfl

/-- The handle of a node that is there is no fresh one. -/
theorem not_isFresh_of_node? {arena : Arena H} {id : Handle} {node : Node H}
    (h : arena.node? id = some node) (fresh : Nat) : ¬ id.IsFresh arena.slots.length fresh := by
  rintro ⟨number, rfl, hLe, -⟩
  obtain ⟨number', hEq, hLt⟩ := Slots.exists_lt_of_node?_eq_some h
  cases hEq
  omega

/-- A node that is there is none that a pass constructs. -/
theorem not_mem_mount {arena : Arena H} {id : Handle} {node : Node H}
    (h : arena.node? id = some node) (tree : VirtualTree H) :
    id ∉ (mount arena.slots.length tree).ids :=
  fun hMem => not_isFresh_of_node? h tree.count (LiveTree.mem_ids_mount.mp hMem)

mutual

/-- **Constructing a tree mounts it**, and leaves every other node alone. -/
theorem turned_create : (tree : VirtualTree H) → (pass : Pass H) →
    (create pass tree).1 = .node pass.arena.slots.length ∧
      pass.Turned (create pass tree).2 [] (mount pass.arena.slots.length tree).nodes
        (mountCalls pass.arena.slots.length tree) ⟨tree.count, 0, 0, 0, 0⟩
  | .node tag properties trees, pass => by
      rw [create_node]
      refine ⟨rfl, ?_⟩
      have hBegun := pass.turned_begun tag properties
      have hBelow := turned_createAll trees (pass.begun tag properties) pass.arena.fresh _
        hBegun.arena.node?_first
      rw [hBegun.arena.length] at hBelow
      exact hBegun.overlaid hBelow (by simp)

/-- Constructing trees below a node mounts them and appends them to the
children of the node. -/
theorem turned_createAll : (trees : List (VirtualTree H)) → (pass : Pass H) →
    (parent : Handle) → (node : Node H) → pass.arena.node? parent = some node →
    pass.Turned (createAll pass parent trees) []
      ((parent, { node with
          children := node.children ++ (mountAll pass.arena.slots.length trees).map root }) ::
        nodesAll (mountAll pass.arena.slots.length trees))
      (fillCalls parent pass.arena.slots.length trees) ⟨VirtualTree.countAll trees, 0, 0, 0, 0⟩
  | [], pass, parent, node, hNode => by
      rw [createAll]
      simp only [mountAll, List.map_nil, List.append_nil, nodesAll, fillCalls,
        VirtualTree.countAll]
      exact ⟨.of_holds hNode, rfl⟩
  | tree :: rest, pass, parent, node, hNode => by
      rw [createAll_cons]
      obtain ⟨hRoot, hChild⟩ := turned_create tree pass
      have hApart : parent ∉ (mount pass.arena.slots.length tree).ids :=
        not_mem_mount hNode tree
      have hNode' : (create pass tree).2.arena.node? parent = some node := by
        rw [hChild.arena.keeps parent (by simp) hApart, hNode]
      have hAdd := redrawn_addChild (create pass tree).2.arena hNode' (create pass tree).1
      have hRest := turned_createAll rest (pass.filled parent tree) parent _ hAdd.node?_first
      have hLength : (pass.filled parent tree).arena.slots.length =
          pass.arena.slots.length + tree.count := by
        rw [← hChild.arena.length]
        exact hAdd.length
      rw [hLength] at hRest
      have hAdded : (create pass tree).2.Turned (pass.filled parent tree) [] _ _ .zero := ⟨hAdd, rfl⟩
      have hAll := hChild.append (hAdded.overlaid hRest (by simp)) (by simp) fun id hMem => by
        rw [List.map_cons, List.mem_cons, not_or]
        refine ⟨?_, LiveTree.not_mem_mountAll_behind hMem⟩
        rintro rfl
        exact hApart hMem
      have hOrder := hAll.perm List.perm_middle
      simpa [hRoot, mountAll, fillCalls, nodesAll, VirtualTree.countAll, Stats.add_mk, Stats.zero]
        using hOrder

end

/-- Constructing trees in a row mounts them, and asks for each to be appended. -/
theorem turned_createRest (trees : List (VirtualTree H)) (pass : Pass H) (index : Nat)
    (edits : Edits) :
    (createRest pass index edits trees).1 =
        { edits with
          attach := edits.attach ++ (mountAll pass.arena.slots.length trees).map root } ∧
      pass.Turned (createRest pass index edits trees).2 []
        (nodesAll (mountAll pass.arena.slots.length trees))
        (rowCalls pass.arena.slots.length trees) ⟨VirtualTree.countAll trees, 0, 0, 0, 0⟩ := by
  induction trees generalizing pass index edits with
  | nil =>
      refine ⟨by simp [createRest, mountAll], ?_⟩
      exact .refl pass
  | cons tree rest ih =>
      obtain ⟨hRoot, hFirst⟩ := turned_create tree pass
      have hEdits : edits.settle index none (some (create pass tree).1) =
          { edits with attach := edits.attach ++ [(create pass tree).1] } := rfl
      obtain ⟨hRestEdits, hRest⟩ := ih (create pass tree).2 (index + 1)
        (edits.settle index none (some (create pass tree).1))
      rw [hFirst.arena.length] at hRest hRestEdits
      refine ⟨?_, ?_⟩
      · simp only [createRest]
        rw [hRestEdits, hEdits, hRoot]
        simp [mountAll]
      · simp only [createRest]
        have hAll := hFirst.append hRest (by simp) fun id hMem =>
          LiveTree.not_mem_mountAll_behind hMem
        simpa [mountAll, rowCalls, nodesAll, VirtualTree.countAll, Stats.add_mk] using hAll

/-! ## Positions that only the old tree has -/

theorem drop_succ_of_drop {children : List Handle} {index : Nat} {live : LiveTree H}
    {lives : List (LiveTree H)} (hDrop : children.drop index = (live :: lives).map root) :
    children.drop (index + 1) = lives.map root := by
  rw [← List.drop_drop, hDrop, List.map_cons, List.drop_one, List.tail_cons]

/-- Disposing of a live tree leaves the parent and the live trees behind it alone. -/
theorem Turned.behind_gone {pass after : Pass H} {ids : List Handle} {lives : List (LiveTree H)}
    {made : List (Call H)} {spent : Stats} {parent : Handle} {node : Node H}
    (h : pass.Turned after ids [] made spent) (hNode : pass.arena.node? parent = some node)
    (hParent : parent ∉ ids) (hLives : pass.arena.Holds (nodesAll lives))
    (hApart : ∀ id ∈ ids, ∀ other ∈ idsAll lives, id ≠ other) :
    after.arena.node? parent = some node ∧ after.arena.Holds (nodesAll lives) := by
  refine ⟨?_, ?_⟩
  · rw [h.arena.keeps parent hParent (by simp), hNode]
  · exact h.arena.holds_apart hLives (fun id hMem hIn => hApart id hIn id hMem rfl) (by simp)

/-- Dropping positions disposes of their live trees, and asks for each to be
taken out. -/
theorem turned_dropRest (olds : List (VirtualTree H)) (pass : Pass H) (parent : Handle)
    (node : Node H) (index : Nat) (edits : Edits) (lives : List (LiveTree H))
    (hNode : pass.arena.node? parent = some node)
    (hDrop : node.children.drop index = lives.map root) (hLength : lives.length ≤ olds.length)
    (hHolds : pass.arena.Holds (nodesAll lives)) (hNodup : (idsAll lives).Nodup)
    (hParent : parent ∉ idsAll lives) :
    (dropRest pass parent index edits olds).1 =
        { edits with detach := edits.detach ++ List.range' index lives.length } ∧
      pass.Turned (dropRest pass parent index edits olds).2 (idsAll lives) []
        (lives.map (.dispose ·.root)) ⟨0, 0, lives.length, 0, 0⟩ := by
  induction olds generalizing pass index edits lives with
  | nil =>
      obtain rfl : lives = [] := List.length_eq_zero_iff.mp (Nat.le_zero.mp hLength)
      exact ⟨by simp [dropRest], .refl pass⟩
  | cons old olds ih =>
      have hLive := Arena.childAt?_of_drop hNode hDrop
      cases lives with
      | nil =>
          have hDrop' : node.children.drop (index + 1) = [] := by
            rw [← List.drop_drop, hDrop, List.map_nil, List.drop_nil]
          simp only [dropRest, hLive]
          exact ih pass (index + 1) edits [] hNode hDrop' (Nat.zero_le _) hHolds hNodup hParent
      | cons live lives =>
          rw [nodesAll, Arena.Holds, Slots.holds_append] at hHolds
          rw [idsAll_cons, List.nodup_append] at hNodup
          rw [idsAll_cons, List.mem_append, not_or] at hParent
          obtain ⟨hNodupLive, hNodupLives, hApart⟩ := hNodup
          have hFirst := turned_dispose pass live hHolds.1 hNodupLive
          obtain ⟨hNode', hHolds'⟩ := hFirst.behind_gone hNode hParent.1 hHolds.2 hApart
          obtain ⟨hEdits, hRest⟩ := ih (pass.dispose live.root) (index + 1)
            (edits.settle index (some live.root) none) lives hNode' (drop_succ_of_drop hDrop)
            (Nat.le_of_succ_le_succ hLength) hHolds' hNodupLives hParent.2
          simp only [dropRest, hLive, List.head?_cons, Option.map_some, disposeIfLive]
          refine ⟨?_, ?_⟩
          · rw [hEdits]
            simp [Edits.settle, List.range'_succ]
          · have hAll := hFirst.append hRest (by simp) (by simp)
            simpa [Stats.add_mk, Nat.add_comm] using hAll

/-! ## The edits of a list of children -/

end Pass

section Kept

theorem keptLength_le_left (before after : List Handle) :
    keptLength before after ≤ before.length := by
  induction before generalizing after with
  | nil => simp [keptLength]
  | cons first rest ih =>
      cases after with
      | nil => simp [keptLength]
      | cons other others =>
          have hRest := ih others
          rw [keptLength, List.length_cons]
          split <;> omega

theorem keptLength_le_right (before after : List Handle) :
    keptLength before after ≤ after.length := by
  induction before generalizing after with
  | nil => simp [keptLength]
  | cons first rest ih =>
      cases after with
      | nil => simp [keptLength]
      | cons other others =>
          have hRest := ih others
          rw [keptLength, List.length_cons]
          split <;> omega

/-- The kept beginning is the same in both lists. -/
theorem take_keptLength (before after : List Handle) :
    before.take (keptLength before after) = after.take (keptLength before after) := by
  induction before generalizing after with
  | nil => simp [keptLength]
  | cons first rest ih =>
      cases after with
      | nil => simp [keptLength]
      | cons other others =>
          rw [keptLength]
          split
          · rename_i hEq
            rw [List.take_succ_cons, List.take_succ_cons, ih others, hEq]
          · rfl

/-- One more child is kept if all before it were and the list had it there. -/
theorem keptLength_append_one (before after : List Handle) (child : Handle) :
    keptLength before (after ++ [child]) =
      if keptLength before after = after.length ∧ before[after.length]? = some child
      then keptLength before after + 1 else keptLength before after := by
  induction after generalizing before with
  | nil =>
      cases before with
      | nil => simp [keptLength]
      | cons first rest => simp [keptLength]
  | cons other others ih =>
      cases before with
      | nil => simp [keptLength]
      | cons first rest =>
          rw [List.cons_append, keptLength, keptLength, ih rest]
          by_cases hEq : first = other
          · simp only [if_pos hEq, List.length_cons, List.getElem?_cons_succ,
              Nat.add_right_cancel_iff]
            split <;> rfl
          · simp [hEq]

/-- Beyond the end of the old list nothing is kept. -/
theorem keptLength_append_of_le (before after more : List Handle)
    (h : before.length ≤ after.length) :
    keptLength before (after ++ more) = keptLength before after := by
  induction after generalizing before with
  | nil =>
      obtain rfl := List.length_eq_zero_iff.mp (Nat.le_zero.mp h)
      simp [keptLength]
  | cons other others ih =>
      cases before with
      | nil => simp [keptLength]
      | cons first rest =>
          rw [List.cons_append, keptLength, keptLength, ih rest (Nat.le_of_succ_le_succ h)]

end Kept

namespace Edits

/-- The edits that the first `index` positions need, where the list of live
children is `before` and the positions hold `after` now. -/
def needed (before after : List Handle) (index : Nat) : Edits :=
  let kept := keptLength before after
  ⟨List.range' kept (min index before.length - kept), after.drop kept,
    decide (kept < min before.length after.length)⟩

theorem needed_start (before : List Handle) : needed before [] 0 = none := by
  have hKept : keptLength before [] = 0 := by cases before <;> rfl
  simp [needed, hKept, none]

theorem range'_append_one {start stop : Nat} (h : start ≤ stop) :
    List.range' start (stop - start) ++ [stop] = List.range' start (stop + 1 - start) := by
  have hSucc : stop + 1 - start = stop - start + 1 := by omega
  rw [hSucc, List.range'_concat]
  congr 2
  omega

/-- **A position that both lists have** keeps the edits the needed ones. -/
theorem settle_some {before after : List Handle} {old : Handle}
    (hOld : before[after.length]? = some old) (child : Handle) :
    (needed before after after.length).settle after.length (some old) (some child) =
      needed before (after ++ [child]) (after.length + 1) := by
  have hLe := keptLength_le_right before after
  have hLt : after.length < before.length := (List.getElem?_eq_some_iff.mp hOld).1
  have hMin : min after.length before.length = after.length := Nat.min_eq_left (by omega)
  have hMin' : min (after.length + 1) before.length = after.length + 1 := Nat.min_eq_left hLt
  have hKept := keptLength_append_one before after child
  simp only [hOld, Option.some.injEq] at hKept
  have hAttach : (after ++ [child]).drop (keptLength before after) =
      after.drop (keptLength before after) ++ [child] := List.drop_append_of_le_length hLe
  by_cases hPrefix : keptLength before after = after.length ∧ old = child
  · -- Nothing has been replaced so far, and this position is not either.
    rw [if_pos hPrefix] at hKept
    obtain ⟨hAll, rfl⟩ := hPrefix
    have hShort : min before.length after.length = after.length := by omega
    have hShort' : min before.length (after.length + 1) = after.length + 1 := by omega
    simp [settle, needed, hKept, hAll, hMin, hMin', hShort, hShort']
  · rw [if_neg hPrefix] at hKept
    have hMoved : ¬ (child = old ∧
        (!decide (keptLength before after < min before.length after.length)) = true) := by
      rintro ⟨rfl, hNot⟩
      rw [Bool.not_eq_true', decide_eq_false_iff_not] at hNot
      exact hPrefix ⟨by omega, rfl⟩
    have hMoved' : (decide (child = old) &&
        !decide (keptLength before after < min before.length after.length)) = false := by
      simpa using hMoved
    have hDisplaced : (decide (keptLength before after < min before.length after.length) ||
        decide (child ≠ old)) = true := by
      rw [Bool.or_eq_true, decide_eq_true_eq, decide_eq_true_eq]
      by_cases hEq : child = old
      · have hNe : keptLength before after ≠ after.length := fun h => hPrefix ⟨h, hEq.symm⟩
        exact .inl (by omega)
      · exact .inr hEq
    have hBehind : keptLength before after < min before.length (after ++ [child]).length := by
      rw [List.length_append, List.length_singleton]
      omega
    simp only [settle, needed, hKept, hMin, hMin', hAttach, hMoved', Bool.false_eq_true, if_false,
      hDisplaced, range'_append_one hLe, decide_eq_true hBehind]

/-- Beyond the end of the old list every position asks for its child to be appended. -/
theorem needed_attach {before after : List Handle} (h : before.length ≤ after.length)
    (more : List Handle) :
    { needed before after after.length with
        attach := (needed before after after.length).attach ++ more } =
      needed before (after ++ more) before.length := by
  have hLe := keptLength_le_right before after
  have hDrop : (after ++ more).drop (keptLength before after) =
      after.drop (keptLength before after) ++ more := List.drop_append_of_le_length hLe
  have hMin : min before.length (after ++ more).length = min before.length after.length := by
    rw [List.length_append]
    omega
  simp only [needed, keptLength_append_of_le before after more h, hDrop, hMin,
    Nat.min_eq_right h, Nat.min_self]

/-- Beyond the end of the new list every position asks for its child to be taken out. -/
theorem needed_detach {before after : List Handle} {count : Nat}
    (h : after.length + count = before.length) :
    { needed before after after.length with
        detach := (needed before after after.length).detach ++ List.range' after.length count } =
      needed before after before.length := by
  have hLe := keptLength_le_right before after
  have hDetach : List.range' (keptLength before after) (after.length - keptLength before after) ++
      List.range' after.length count =
        List.range' (keptLength before after) (before.length - keptLength before after) := by
    have hSplit : before.length - keptLength before after =
        after.length - keptLength before after + count := by omega
    have hStart : keptLength before after + (after.length - keptLength before after) =
        after.length := by omega
    rw [hSplit, ← List.range'_append_1, hStart]
  have hMin : min after.length before.length = after.length := Nat.min_eq_left (by omega)
  simp only [needed, hMin, Nat.min_self, hDetach]

end Edits

namespace Arena

/-- Taking a child out shows the parent without it. -/
theorem redrawn_removeChildAt (arena : Arena H) {parent : Handle} {node : Node H} {index : Nat}
    (hNode : arena.node? parent = some node) (hIndex : index < node.children.length) :
    (arena.removeChildAt parent index).1 = some node.children[index] ∧
      arena.Redrawn (arena.removeChildAt parent index).2 []
        [(parent, { node with children := node.children.eraseIdx index })] 0
        [.removeChildAt parent index] := by
  have hChild : (arena.node? parent).bind (fun node => node.children[index]?) =
      some node.children[index] := by
    rw [hNode]
    exact List.getElem?_eq_getElem hIndex
  rw [removeChildAt, hChild]
  exact ⟨rfl, redrawn_alter arena
    (fun node => { node with children := node.children.eraseIdx index }) _ hNode⟩

end Arena

namespace Pass

theorem detachAll_cons (pass : Pass H) (parent : Handle) (index : Nat) (rest : List Nat)
    {child : Handle}
    (h : ((pass.detachAll parent rest).arena.removeChildAt parent index).1 = some child) :
    pass.detachAll parent (index :: rest) =
      { (pass.detachAll parent rest).remark (.removeChild index) with
        arena := ((pass.detachAll parent rest).arena.removeChildAt parent index).2
        stats := (pass.detachAll parent rest).stats + ⟨0, 0, 0, 1, 0⟩ } := by
  rw [detachAll]
  simp only [remark]
  split
  · rename_i hGone
    rw [hGone] at h
    cases h
  · rename_i hFound
    rw [hFound]
    rfl

theorem eraseIdx_take_succ {children : List Handle} {kept : Nat} (h : kept < children.length) :
    (children.take (kept + 1)).eraseIdx kept = children.take kept := by
  have hLength : (children.take kept).length = kept := List.length_take_of_le (by omega)
  rw [List.take_add_one, List.eraseIdx_append_of_length_le (by omega), hLength, Nat.sub_self,
    List.getElem?_eq_getElem h]
  simp

/-- Taking the last children out leaves those in front. -/
theorem turned_detachAll (count : Nat) (pass : Pass H) (parent : Handle) (node : Node H)
    (kept : Nat) (hNode : pass.arena.node? parent = some node)
    (hCount : kept + count = node.children.length) :
    pass.Turned (pass.detachAll parent (List.range' kept count)) []
      [(parent, { node with children := node.children.take kept })]
      ((List.range' kept count).reverse.map (.removeChildAt parent ·)) ⟨0, 0, 0, count, 0⟩ := by
  induction count generalizing kept with
  | zero =>
      have hTake : node.children.take kept = node.children := List.take_of_length_le (by omega)
      rw [hTake]
      exact ⟨.of_holds hNode, rfl⟩
  | succ count ih =>
      have hRest := ih (kept + 1) (by omega)
      have hIndex : kept < (node.children.take (kept + 1)).length := by
        rw [List.length_take]
        omega
      obtain ⟨hChild, hLast⟩ := Arena.redrawn_removeChildAt _ hRest.arena.node?_first hIndex
      rw [List.range'_succ, detachAll_cons _ _ _ _ hChild]
      have hErase : (node.children.take (kept + 1)).eraseIdx kept = node.children.take kept :=
        eraseIdx_take_succ (by omega)
      have hBoth := hRest.arena.retouch hLast (by simp)
      simp only [hErase] at hBoth
      refine ⟨?_, ?_⟩
      · simpa using hBoth
      · exact (congrArg (· + _) hRest.stats).trans (Stats.add_assoc _ _ _)

/-- The pass when a child has been appended to a kept node. -/
def appended (pass : Pass H) (parent child : Handle) : Pass H :=
  { pass with
    arena := pass.arena.addChild parent child
    stats := pass.stats + ⟨0, 0, 0, 0, 1⟩ }

theorem attachAll_cons (pass : Pass H) (parent child : Handle) (rest : List Handle) :
    pass.attachAll parent (child :: rest) = (pass.appended parent child).attachAll parent rest := rfl

/-- Appending children puts them behind those that are there. -/
theorem turned_attachAll (more : List Handle) (pass : Pass H) (parent : Handle) (node : Node H)
    (hNode : pass.arena.node? parent = some node) :
    pass.Turned (pass.attachAll parent more) []
      [(parent, { node with children := node.children ++ more })]
      (more.map (.addChild parent ·)) ⟨0, 0, 0, 0, more.length⟩ := by
  induction more generalizing pass node with
  | nil =>
      rw [List.append_nil]
      exact ⟨.of_holds hNode, rfl⟩
  | cons child rest ih =>
      rw [attachAll_cons]
      have hAdd := redrawn_addChild pass.arena hNode child
      have hRest := ih (pass.appended parent child) _ hAdd.node?_first
      refine ⟨?_, ?_⟩
      · simpa using hAdd.retouch hRest.arena (by simp)
      · rw [List.length_cons, Nat.add_comm rest.length 1]
        exact hRest.stats.trans (Stats.add_assoc _ _ _)

/-- **The needed edits lead from the old list to the new one.** -/
theorem turned_applyEdits (pass : Pass H) (parent : Handle) (node : Node H)
    (after : List Handle) (hNode : pass.arena.node? parent = some node) :
    pass.Turned (pass.applyEdits parent (.needed node.children after node.children.length)) []
      [(parent, { node with children := after })] (editCalls parent node.children after)
      (editStats node.children after) := by
  have hKept := keptLength_le_left node.children after
  have hDetach := turned_detachAll (node.children.length - keptLength node.children after) pass
    parent node (keptLength node.children after) hNode (by omega)
  have hAttach := turned_attachAll (after.drop (keptLength node.children after)) _ parent _
    hDetach.arena.node?_first
  have hBoth := hDetach.arena.retouch hAttach.arena (by simp)
  have hJoin : node.children.take (keptLength node.children after) ++
      after.drop (keptLength node.children after) = after := by
    rw [take_keptLength, List.take_append_drop]
  simp only [hJoin] at hBoth
  rw [applyEdits]
  simp only [Edits.needed, Nat.min_self]
  refine ⟨hBoth, ?_⟩
  rw [hAttach.stats, hDetach.stats, Stats.add_assoc, List.length_drop, editStats]
  exact congrArg (pass.stats + ·) (by rw [Stats.add_mk]; simp)


/-! ## Positions that both trees have -/

theorem meet_none (pass : Pass H) (old new : VirtualTree H) :
    meet pass none old new = create pass new := by
  cases new
  rw [meet]

/-- The pass when the tag of a position has changed and its live tree is gone. -/
def replaced (pass : Pass H) (id : Handle) (old new : String) : Pass H :=
  (pass.remark (.typeChange old new)).dispose id

theorem meet_of_ne (pass : Pass H) (id : Handle) {old new : VirtualTree H}
    (h : old.tag ≠ new.tag) :
    meet pass (some id) old new = create (pass.replaced id old.tag new.tag) new := by
  cases new
  rw [meet]
  exact if_pos h

/-- The pass when a kept node has its properties, before its children are compared. -/
def patched (pass : Pass H) (id : Handle) (properties : Properties H) : Pass H :=
  { pass with
    arena := patch pass.arena id properties
    stats := pass.stats + ⟨0, 1, 0, 0, 0⟩ }

theorem meet_of_eq (pass : Pass H) (id : Handle) {old : VirtualTree H} {tag : String}
    {fresh : Properties H} {news : List (VirtualTree H)} (h : old.tag = tag) :
    meet pass (some id) old (.node tag fresh news) =
      (id, (meetAll (pass.patched id fresh) id 0 .none old.children news).2.applyEdits id
        (meetAll (pass.patched id fresh) id 0 .none old.children news).1) := by
  rw [meet]
  exact if_neg (not_not_intro h)

theorem turned_patched (pass : Pass H) {id : Handle} {node : Node H}
    (h : pass.arena.node? id = some node) (properties : Properties H) :
    pass.Turned (pass.patched id properties) []
      [(id, { node with properties := node.properties.overlay properties })]
      (patchCalls id properties) ⟨0, 1, 0, 0, 0⟩ :=
  ⟨redrawn_patch pass.arena h properties, rfl⟩

/-- Where no live child is left nothing is dropped. -/
theorem dropRest_of_no_child (olds : List (VirtualTree H)) (pass : Pass H) (parent : Handle)
    (index : Nat) (edits : Edits) (h : (pass.arena.children parent).length ≤ index) :
    dropRest pass parent index edits olds = (edits, pass) := by
  induction olds generalizing index with
  | nil => rfl
  | cons old olds ih =>
      have hNone : pass.arena.childAt? parent index = none := List.getElem?_eq_none h
      simp only [dropRest, hNone]
      exact ih (index + 1) (by omega)

/-- Where no live child is left all positions are constructed. -/
theorem meetAll_of_no_child (news : List (VirtualTree H)) (pass : Pass H) (parent : Handle)
    (node : Node H) (index : Nat) (edits : Edits) (olds : List (VirtualTree H))
    (hNode : pass.arena.node? parent = some node) (h : node.children.length ≤ index) :
    meetAll pass parent index edits olds news = createRest pass index edits news := by
  have hChildren : pass.arena.children parent = node.children := by
    rw [Arena.children, hNode]
  induction news generalizing pass index edits olds with
  | nil =>
      rw [meetAll, dropRest_of_no_child olds pass parent index edits (by rw [hChildren]; exact h)]
      rfl
  | cons new news ih =>
      cases olds with
      | nil => rw [meetAll]
      | cons old olds =>
          have hNone : pass.arena.childAt? parent index = none := by
            rw [Arena.childAt?, hChildren]
            exact List.getElem?_eq_none h
          have hMade := (turned_create new pass).2.arena
          have hNode' : (create pass new).2.arena.node? parent = some node := by
            rw [hMade.keeps parent (by simp) (not_mem_mount hNode new), hNode]
          rw [meetAll, createRest]
          simp only [hNone, meet_none]
          exact ih (create pass new).2 (index + 1) _ olds hNode' (by omega)
            (by rw [Arena.children, hNode'])

/-- What stands in an arena stands behind handles that have been given out. -/
theorem old_of_holds {arena : Arena H} {entries : List (Handle × Node H)}
    (h : arena.Holds entries) : LiveTree.Old arena.slots.length (entries.map Prod.fst) := by
  intro id hMem
  obtain ⟨entry, hEntry, rfl⟩ := List.mem_map.mp hMem
  exact Slots.exists_lt_of_node?_eq_some (h entry hEntry)

/-- A node that is there and outside of live trees stays outside of them. -/
theorem not_mem_meetAll {arena : Arena H} {id : Handle} {node : Node H}
    (hNode : arena.node? id = some node) {lives : List (LiveTree H)} (hNot : id ∉ idsAll lives)
    (olds news : List (VirtualTree H)) :
    id ∉ idsAll (LiveTree.meetAll arena.slots.length lives olds news).trees := by
  intro hMem
  rcases LiveTree.mem_idsAll_meetAll news _ _ _ _ hMem with hIn | hFresh
  · exact hNot hIn
  · exact not_isFresh_of_node? hNode _ hFresh

/-- A pass over a position leaves the parent and the live trees behind it alone. -/
theorem Turned.behind_meet {pass after : Pass H} {live : LiveTree H} {lives : List (LiveTree H)}
    {old new : VirtualTree H} {made : List (Call H)} {spent : Stats} {parent : Handle}
    {node : Node H} (h : pass.Turned after live.ids
      (LiveTree.meet pass.arena.slots.length live old new).tree.nodes made spent)
    (hNode : pass.arena.node? parent = some node) (hParent : parent ∉ live.ids)
    (hLives : pass.arena.Holds (nodesAll lives))
    (hApart : ∀ id ∈ live.ids, ∀ other ∈ idsAll lives, id ≠ other) :
    after.arena.node? parent = some node ∧ after.arena.Holds (nodesAll lives) ∧
      ∀ id ∈ idsAll lives, id ∉ (LiveTree.meet pass.arena.slots.length live old new).tree.ids := by
  have hParentNew : parent ∉ (LiveTree.meet pass.arena.slots.length live old new).tree.ids := by
    intro hMem
    rcases LiveTree.mem_ids_meet new _ _ _ _ hMem with hIn | hFresh
    · exact hParent hIn
    · exact not_isFresh_of_node? hNode _ hFresh
  have hBehind : ∀ id ∈ idsAll lives,
      id ∉ (LiveTree.meet pass.arena.slots.length live old new).tree.ids := by
    intro id hMem hIn
    rcases LiveTree.mem_ids_meet new _ _ _ _ hIn with hIn | hFresh
    · exact hApart id hIn id hMem rfl
    · exact (old_of_holds hLives).not_isFresh (Nat.le_refl _) hMem hFresh
  refine ⟨?_, ?_, hBehind⟩
  · rw [h.arena.keeps parent hParent hParentNew, hNode]
  · exact h.arena.holds_apart hLives (fun id hMem hIn => hApart id hIn id hMem rfl) hBehind

mutual

/-- **A pass over a live tree is its turn**: the live tree of the turn stands
there afterwards, and every node outside of the two is left alone. -/
theorem turned_meet : (new : VirtualTree H) → (pass : Pass H) → (live : LiveTree H) →
    (old : VirtualTree H) → pass.arena.Holds live.nodes → live.ids.Nodup → live.Follows old →
    (meet pass (some live.root) old new).1 =
        (LiveTree.meet pass.arena.slots.length live old new).tree.root ∧
      pass.Turned (meet pass (some live.root) old new).2 live.ids
        (LiveTree.meet pass.arena.slots.length live old new).tree.nodes
        (LiveTree.meet pass.arena.slots.length live old new).made
        (LiveTree.meet pass.arena.slots.length live old new).stats
  | .node tag fresh news, pass, .node id liveTag properties handlers lives, old, hHolds, hNodup,
      hFollows => by
      by_cases hTag : old.tag = tag
      · rw [LiveTree.ids_node, List.nodup_cons] at hNodup
        rw [LiveTree.nodes, Arena.Holds, Slots.holds_cons] at hHolds
        obtain ⟨hNode, hLives⟩ := hHolds
        have hPatch := pass.turned_patched hNode fresh
        have hNode' := hPatch.arena.node?_first
        have hLives' : (pass.patched id fresh).arena.Holds (nodesAll lives) :=
          hPatch.arena.holds_apart hLives (by simp) fun other hMem hEq => by
            have hOther : other = id := by simpa using hEq
            exact hNodup.1 (hOther ▸ hMem)
        obtain ⟨hEdits, hBelow⟩ := turned_meetAll news (pass.patched id fresh) id _ [] lives
          old.children hNode' rfl hLives' hNodup.2 hNodup.1 hFollows.children
        rw [hPatch.arena.length] at hEdits hBelow
        simp only [Nat.add_zero, List.length_nil, List.nil_append, Edits.needed_start]
          at hEdits hBelow
        have hApart := not_mem_meetAll hNode hNodup.1 old.children news
        have hBoth := hPatch.append hBelow (by simpa using hNodup.1) fun other hMem => by
          obtain rfl : other = id := by simpa using hMem
          exact hApart
        have hEdited := turned_applyEdits _ id _
          ((LiveTree.meetAll pass.arena.slots.length lives old.children news).trees.map root)
          (hBoth.arena.node?_first)
        rw [← hEdits] at hEdited
        have hAll := Turned.retouch rfl hBoth hEdited hApart
        rw [LiveTree.root, meet_of_eq pass id hTag, LiveTree.meet, if_neg (not_not_intro hTag)]
        refine ⟨rfl, ?_, ?_⟩
        · refine hAll.arena.gone_mono (by simp) fun other hMem hNot => ?_
          simp_all
        · exact hAll.stats
      · have hGone := turned_dispose (pass.remark (.typeChange old.tag tag)) _ hHolds hNodup
        obtain ⟨hRoot, hMade⟩ := turned_create (.node tag fresh news)
          (pass.replaced id old.tag tag)
        have hLength : (pass.replaced id old.tag tag).arena.slots.length =
            pass.arena.slots.length := hGone.arena.length
        rw [hLength] at hRoot hMade
        have hAll := hGone.append hMade (by simp) (by simp)
        rw [LiveTree.meet_of_ne hTag, LiveTree.root]
        have hMeet : meet pass (some id) old (.node tag fresh news) =
            create (pass.replaced id old.tag tag) (.node tag fresh news) :=
          meet_of_ne pass id hTag
        rw [hMeet]
        have hSpent : (⟨0, 0, 1, 0, 0⟩ : Stats) + ⟨(VirtualTree.node tag fresh news).count, 0, 0, 0, 0⟩ =
            ⟨(VirtualTree.node tag fresh news).count, 0, 1, 0, 0⟩ := by
          rw [Stats.add_mk]
          simp only [Nat.zero_add, Nat.add_zero]
        rw [hSpent, List.append_nil] at hAll
        exact ⟨hRoot.trans (LiveTree.root_mount _ _).symm, hAll.arena, hAll.stats⟩

/-- A pass over the positions below a kept node is their turns, and what it
asks for are the edits that lead to the new list of children. -/
theorem turned_meetAll : (news : List (VirtualTree H)) → (pass : Pass H) → (parent : Handle) →
    (node : Node H) → (after : List Handle) → (lives : List (LiveTree H)) →
    (olds : List (VirtualTree H)) → pass.arena.node? parent = some node →
    node.children.drop after.length = lives.map root → pass.arena.Holds (nodesAll lives) →
    (idsAll lives).Nodup → parent ∉ idsAll lives → FollowsAll lives olds →
    (meetAll pass parent after.length (.needed node.children after after.length) olds news).1 =
        .needed node.children
          (after ++ (LiveTree.meetAll pass.arena.slots.length lives olds news).trees.map root)
          node.children.length ∧
      pass.Turned
        (meetAll pass parent after.length (.needed node.children after after.length) olds news).2
        (idsAll lives)
        (nodesAll (LiveTree.meetAll pass.arena.slots.length lives olds news).trees)
        (LiveTree.meetAll pass.arena.slots.length lives olds news).made
        (LiveTree.meetAll pass.arena.slots.length lives olds news).stats
  | news, pass, parent, node, after, [], olds, hNode, hDrop, hHolds, hNodup, hParent, hFollows => by
      have hShort : node.children.length ≤ after.length := by
        have hLength := congrArg List.length hDrop
        rw [List.length_drop, List.map_nil, List.length_nil] at hLength
        omega
      obtain ⟨hEdits, hRow⟩ := turned_createRest news pass after.length
        (.needed node.children after after.length)
      rw [meetAll_of_no_child news pass parent node _ _ olds hNode hShort, LiveTree.meetAll_nil]
      refine ⟨?_, hRow⟩
      rw [hEdits]
      exact Edits.needed_attach hShort _
  | [], pass, parent, node, after, live :: lives, olds, hNode, hDrop, hHolds, hNodup, hParent,
      hFollows => by
      have hLength : after.length + (live :: lives).length = node.children.length := by
        have hEq := congrArg List.length hDrop
        rw [List.length_drop, List.length_map, List.length_cons] at hEq
        rw [List.length_cons]
        omega
      obtain ⟨hEdits, hRow⟩ := turned_dropRest olds pass parent node after.length
        (.needed node.children after after.length) (live :: lives) hNode hDrop
        (LiveTree.length_le_of_followsAll hFollows) hHolds hNodup hParent
      rw [meetAll, LiveTree.meetAll, List.map_nil, List.append_nil]
      refine ⟨?_, hRow⟩
      rw [hEdits]
      exact Edits.needed_detach hLength
  | new :: news, pass, parent, node, after, live :: lives, old :: olds, hNode, hDrop, hHolds,
      hNodup, hParent, hFollows => by
      rw [FollowsAll] at hFollows
      rw [nodesAll, Arena.Holds, Slots.holds_append] at hHolds
      rw [idsAll_cons, List.mem_append, not_or] at hParent
      have hWhole : (idsAll (LiveTree.meetAll pass.arena.slots.length (live :: lives) (old :: olds)
          (new :: news)).trees).Nodup :=
        LiveTree.nodup_idsAll_meetAll _ _ _ _ hNodup (old_of_holds (Slots.holds_append.mpr hHolds))
      rw [LiveTree.meetAll, idsAll_cons, List.nodup_append] at hWhole
      rw [idsAll_cons, List.nodup_append] at hNodup
      obtain ⟨hNodupLive, hNodupLives, hApart⟩ := hNodup
      obtain ⟨hRoot, hFirst⟩ := turned_meet new pass live old hHolds.1 hNodupLive hFollows.1
      obtain ⟨hNode', hLives', hBehind⟩ := hFirst.behind_meet hNode hParent.1 hHolds.2 hApart
      have hChild : node.children[after.length]? = some live.root := by
        rw [← List.head?_drop, hDrop]
        rfl
      have hDrop' : node.children.drop
          (after ++ [(meet pass (some live.root) old new).1]).length = lives.map root := by
        rw [List.length_append]
        exact drop_succ_of_drop hDrop
      obtain ⟨hEdits, hRest⟩ := turned_meetAll news (meet pass (some live.root) old new).2 parent
        node (after ++ [(meet pass (some live.root) old new).1]) lives olds hNode' hDrop' hLives'
        hNodupLives hParent.2 hFollows.2
      rw [hFirst.arena.length] at hEdits hRest
      rw [List.length_append, List.length_singleton, ← Edits.settle_some hChild] at hEdits hRest
      have hLive := Arena.childAt?_of_drop hNode hDrop
      rw [meetAll, LiveTree.meetAll]
      simp only [hLive, List.head?_cons, Option.map_some]
      refine ⟨?_, ?_⟩
      · rw [hEdits, hRoot, List.map_cons, List.append_assoc, List.singleton_append]
      · rw [idsAll_cons, nodesAll]
        refine hFirst.append hRest ?_ fun id hMem hIn => hWhole.2.2 id hMem id hIn rfl
        exact fun id hMem hIn => hBehind id hIn hMem

end


end Pass

end LiveMarkup.Live
