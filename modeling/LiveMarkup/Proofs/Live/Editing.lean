import LiveMarkup.Proofs.Live.Accounting
import LiveMarkup.Proofs.Live.Always
import LiveMarkup.Proofs.Live.Tidy

/-!
# The edits of a list of children

A pass changes the list of the children of a kept node by two kinds of requests:
it takes a child out, or it appends one. This module says which of them it makes for
one node, in which order, among all the requests of the pass.

The calls on record tell it, as far as they are known from the turn of the live
tree, but a removal at a place that does not exist is not on record. So it is shown
apart that a pass asks for none.

## Main results

* `edits_meet_of_not_mem`, `edits_meet_at` — the edits of a list in a turn.
* `rule_sure` — all removals of a pass succeed.
* `Leads.edits` — then the requests for edits are the calls on record.
* `edited_reconcile` — **the edits of a kept list**: what does not stay is taken out
  from the back, and what is missing then is appended.
-/

namespace LiveMarkup.Live

open Arena (initialCalls patchCalls)
open LiveTree (root nodes nodesAll idsAll mount mountAll mountCalls fillCalls rowCalls keptLength
  editCalls meet meetAll Old)
open VirtualTree (shared childrenAt)

variable {H : Type}

/-! ## Edits -/

/-- A change of a list of children. -/
inductive ListEdit where
  | removeAt (index : Nat)
  | append (child : Handle)

/-- The change of the list of children of a node that a request asks for. -/
def Request.edit? (id : Handle) : Request H → Option ListEdit
  | .removeChildAt parent index => if parent = id then some (.removeAt index) else none
  | .addChild parent child => if parent = id then some (.append child) else none
  | _ => none

/-- The change of the list of children of a node that a call has made. -/
def Call.edit? (id : Handle) : Call H → Option ListEdit
  | .removeChildAt parent index => if parent = id then some (.removeAt index) else none
  | .addChild parent child => if parent = id then some (.append child) else none
  | _ => none

/-- The changes that the calls have made of the list of children of a node. -/
def editsOf (id : Handle) (calls : List (Call H)) : List ListEdit :=
  calls.filterMap (Call.edit? id)

@[simp] theorem editsOf_append (id : Handle) (front back : List (Call H)) :
    editsOf id (front ++ back) = editsOf id front ++ editsOf id back :=
  List.filterMap_append

theorem editsOf_concat (id : Handle) (calls : List (Call H)) (call : Call H) :
    editsOf id (calls ++ [call]) = editsOf id calls ++ (call.edit? id).toList := by
  rw [editsOf_append, editsOf, editsOf, List.filterMap_cons]
  cases call.edit? id <;> rfl

/-- The edits that make the list `after` out of one of the given length, whose first
`kept` children stay: the others are taken out, the last one first, and those that
are missing then are appended. -/
def editScript (length kept : Nat) (after : List Handle) : List ListEdit :=
  (List.range' kept (length - kept)).reverse.map .removeAt ++ (after.drop kept).map .append

/-! ## The edits in a turn -/

section Turn

variable {id : Handle} {next : Nat}

theorem editsOf_initialCalls (id other : Handle) (properties : Properties H) :
    editsOf id (initialCalls other properties) = [] := by
  rw [editsOf, List.filterMap_eq_nil_iff]
  intro call hMem
  obtain ⟨⟨name, value⟩, -, rfl⟩ := List.mem_map.mp hMem
  cases value <;> rfl

theorem editsOf_patchCalls (id other : Handle) (properties : Properties H) :
    editsOf id (patchCalls other properties) = [] := by
  rw [editsOf, List.filterMap_eq_nil_iff]
  intro call hMem
  obtain ⟨entry, -, rfl⟩ := List.mem_map.mp hMem
  rfl

/-- The edits of a kept list lead to the new one. -/
theorem editsOf_editCalls (id parent : Handle) (before after : List Handle) :
    editsOf id (editCalls parent before after : List (Call H)) =
      if parent = id then editScript before.length (keptLength before after) after else [] := by
  rw [editCalls, editsOf_append, editsOf, editsOf, List.filterMap_map, List.filterMap_map]
  by_cases hParent : parent = id
  · rw [if_pos hParent, editScript, ← List.filterMap_eq_map, ← List.filterMap_eq_map]
    congr 1 <;> refine congrArg (List.filterMap · _) (funext fun _ => ?_)
    · exact if_pos hParent
    · exact if_pos hParent
  · rw [if_neg hParent, List.append_eq_nil_iff, List.filterMap_eq_nil_iff, List.filterMap_eq_nil_iff]
    exact ⟨fun _ _ => if_neg hParent, fun _ _ => if_neg hParent⟩

mutual

/-- Constructing a tree edits the lists of fresh nodes only. -/
theorem editsOf_mountCalls : (tree : VirtualTree H) → (next : Nat) →
    (∀ number, next ≤ number → id ≠ .node number) → editsOf id (mountCalls next tree) = []
  | .node tag properties children, next, hId => by
      have hFill := editsOf_fillCalls children (.node next) (next + 1) (hId next (Nat.le_refl _)).symm
        fun number hLe => hId number (by omega)
      rw [mountCalls, ← List.singleton_append, editsOf_append, editsOf_append, hFill,
        editsOf_initialCalls]
      rfl

theorem editsOf_fillCalls : (trees : List (VirtualTree H)) → (parent : Handle) → (next : Nat) →
    parent ≠ id → (∀ number, next ≤ number → id ≠ .node number) →
    editsOf id (fillCalls parent next trees) = []
  | [], _, _, _, _ => rfl
  | tree :: rest, parent, next, hParent, hId => by
      have hFirst := editsOf_mountCalls tree next hId
      have hRest := editsOf_fillCalls rest parent (next + tree.count) hParent
        fun number hLe => hId number (by omega)
      rw [fillCalls, editsOf_append, ← List.singleton_append, editsOf_append, hFirst, hRest]
      simp [editsOf, Call.edit?, hParent]

end

theorem editsOf_rowCalls (trees : List (VirtualTree H))
    (hId : ∀ number, next ≤ number → id ≠ .node number) : editsOf id (rowCalls next trees) = [] := by
  induction trees generalizing next with
  | nil => rfl
  | cons tree rest ih =>
      rw [rowCalls, editsOf_append, editsOf_mountCalls tree next hId,
        ih fun number hLe => hId number (by omega)]
      rfl

theorem made_meet_of_eq {live : LiveTree H} {old : VirtualTree H} {tag : String}
    {fresh : Properties H} {news : List (VirtualTree H)} (h : old.tag = tag) :
    (meet next live old (.node tag fresh news)).made =
      patchCalls live.root fresh ++ (meetAll next live.children old.children news).made ++
        editCalls live.root (live.children.map root)
          ((meetAll next live.children old.children news).trees.map root) := by
  cases live
  rw [meet, if_neg (not_not_intro h)]
  rfl

mutual

/-- A turn leaves all other lists alone. -/
theorem edits_meet_of_not_mem : (new : VirtualTree H) → (next : Nat) → (live : LiveTree H) →
    (old : VirtualTree H) → id ∉ live.ids → (∀ number, next ≤ number → id ≠ .node number) →
    editsOf id (meet next live old new).made = []
  | .node tag fresh news, next, live, old, hMem, hId => by
      rw [LiveTree.ids_eq, List.mem_cons, not_or] at hMem
      by_cases hTag : old.tag = tag
      · rw [made_meet_of_eq hTag, editsOf_append, editsOf_append, editsOf_patchCalls,
          edits_meetAll_of_not_mem news next _ _ hMem.2 hId, editsOf_editCalls,
          if_neg (Ne.symm hMem.1)]
        rfl
      · have hTag' : old.tag ≠ (VirtualTree.node tag fresh news).tag := hTag
        rw [LiveTree.meet_of_ne hTag']
        exact editsOf_mountCalls (.node tag fresh news) next hId

theorem edits_meetAll_of_not_mem : (news : List (VirtualTree H)) → (next : Nat) →
    (lives : List (LiveTree H)) → (olds : List (VirtualTree H)) → id ∉ idsAll lives →
    (∀ number, next ≤ number → id ≠ .node number) →
    editsOf id (meetAll next lives olds news).made = []
  | [], next, lives, olds, _, _ => by
      rw [meetAll, editsOf, List.filterMap_eq_nil_iff]
      intro call hCall
      obtain ⟨live, -, rfl⟩ := List.mem_map.mp hCall
      rfl
  | new :: news, next, [], olds, _, hId => by
      rw [LiveTree.meetAll_of_short (.inl rfl)]
      exact editsOf_rowCalls (new :: news) hId
  | new :: news, next, live :: lives, [], _, hId => by
      rw [LiveTree.meetAll_of_short (.inr rfl)]
      exact editsOf_rowCalls (new :: news) hId
  | new :: news, next, live :: lives, old :: olds, hMem, hId => by
      rw [LiveTree.idsAll_cons, List.mem_append, not_or] at hMem
      rw [meetAll, editsOf_append, edits_meet_of_not_mem new next live old hMem.1 hId,
        edits_meetAll_of_not_mem news _ lives olds hMem.2 fun number hLe => hId number (by omega)]
      rfl

end

/-- A turn edits the list of its root once the positions below have been compared. -/
theorem edits_meet_root {live : LiveTree H} {old new : VirtualTree H} (hTag : old.tag = new.tag)
    (hLength : live.children.length = old.children.length) (hNodup : live.ids.Nodup)
    (hGiven : Old next live.ids) :
    (meet next live old new).tree.children.length = new.children.length ∧
      editsOf live.root (meet next live old new).made =
        editScript old.children.length (agreeing old.children new.children)
          ((meet next live old new).tree.children.map root) := by
  obtain ⟨tag, fresh, news⟩ := new
  have hTag' : old.tag = tag := hTag
  have hChildren : (meet next live old (.node tag fresh news)).tree.children =
      (meetAll next live.children old.children news).trees := by
    rw [LiveTree.tree_meet_of_eq hTag']
    rfl
  rw [LiveTree.ids_eq] at hNodup hGiven
  have hBelow := edits_meetAll_of_not_mem news next live.children old.children
    (List.nodup_cons.mp hNodup).1
    fun number hLe => (hGiven.mono hLe (List.Subset.refl _)).ne_next List.mem_cons_self
  have hKept := LiveTree.keptLength_meetAll news next live.children old.children
    (hGiven.mono (Nat.le_refl _) (List.subset_cons_self _ _))
  rw [hLength, List.take_length] at hKept
  rw [hChildren, made_meet_of_eq hTag', editsOf_append, editsOf_append, editsOf_patchCalls, hBelow,
    editsOf_editCalls, if_pos rfl, hKept, List.length_map, hLength]
  exact ⟨LiveTree.length_meetAll news next live.children old.children, rfl⟩

/-- In a row the list of a node is edited in the turn of its tree. -/
theorem edits_meetAll_at {live : LiveTree H} {old new : VirtualTree H} : (index : Nat) →
    (news : List (VirtualTree H)) → (next : Nat) → (lives : List (LiveTree H)) →
    (olds : List (VirtualTree H)) → lives[index]? = some live → olds[index]? = some old →
    news[index]? = some new → id ∈ live.ids → (idsAll lives).Nodup → Old next (idsAll lives) →
    ∃ start, next ≤ start ∧
      (meetAll next lives olds news).trees[index]? = some (meet start live old new).tree ∧
      editsOf id (meetAll next lives olds news).made = editsOf id (meet start live old new).made
  | _, [], _, _, _, _, _, hNew, _, _, _ => by cases hNew
  | _, _ :: _, _, [], _, hLive, _, _, _, _, _ => by cases hLive
  | _, _ :: _, _, _ :: _, [], _, hOld, _, _, _, _ => by cases hOld
  | 0, _ :: news, next, _ :: lives, _ :: olds, rfl, rfl, rfl, hMem, hNodup, hGiven => by
      rw [LiveTree.idsAll_cons] at hNodup hGiven
      have hNot : id ∉ idsAll lives := fun hIn => (List.nodup_append.mp hNodup).2.2 id hMem id hIn rfl
      have hRest := edits_meetAll_of_not_mem news (next + (meet next live old new).stats.created)
        lives olds hNot fun number hLe =>
          (hGiven.mono (by omega) (List.Subset.refl _)).ne_next (List.mem_append_left _ hMem)
      refine ⟨next, Nat.le_refl _, by rw [meetAll]; rfl, ?_⟩
      rw [meetAll, editsOf_append, hRest, List.append_nil]
  | index + 1, firstNew :: news, next, first :: lives, firstOld :: olds, hLive, hOld, hNew, hMem,
      hNodup, hGiven => by
      rw [LiveTree.idsAll_cons] at hNodup hGiven
      have hLive' : lives[index]? = some live := hLive
      have hIn : id ∈ idsAll lives :=
        (LiveTree.ids_sublist (List.mem_of_getElem? hLive')).subset hMem
      have hFirst := edits_meet_of_not_mem firstNew next first firstOld
        (fun hMem => (List.nodup_append.mp hNodup).2.2 id hMem id hIn rfl) fun number hLe =>
          (hGiven.mono hLe (List.Subset.refl _)).ne_next (List.mem_append_right _ hIn)
      obtain ⟨start, hStart, hTree, hEdits⟩ := edits_meetAll_at index news
        (next + (meet next first firstOld firstNew).stats.created) lives olds hLive hOld hNew hMem
        (List.nodup_append.mp hNodup).2.1
        (hGiven.mono (Nat.le_add_right _ _) (List.subset_append_right _ _))
      refine ⟨start, by omega, by rw [meetAll]; exact hTree, ?_⟩
      rw [meetAll, editsOf_append, hFirst, List.nil_append, hEdits]

/-- **The edits of a kept list in a turn**, at any shared position. -/
theorem edits_meet_at (path : List Nat) (new : VirtualTree H) (next : Nat) (live : LiveTree H)
    (old : VirtualTree H) {found : LiveTree H} (hFound : live.at? path = some found)
    (hShared : path ∈ shared old new) (hShape : live.shape = old.shape) (hNodup : live.ids.Nodup)
    (hGiven : Old next live.ids) :
    ∃ after, (meet next live old new).tree.at? path = some after ∧ after.root = found.root ∧
      after.children.length = (new.childrenAt path).length ∧
      editsOf found.root (meet next live old new).made =
        editScript (old.childrenAt path).length
          (agreeing (old.childrenAt path) (new.childrenAt path)) (after.children.map root) := by
  induction path generalizing new next live old with
  | nil =>
      obtain rfl := Option.some.inj hFound
      have hTag := VirtualTree.nil_mem_shared.mp hShared
      have hLength : live.children.length = old.children.length := by
        rw [LiveTree.shape_eq, VirtualTree.shape_eq, Shape.node.injEq] at hShape
        simpa using congrArg List.length hShape.2
      obtain ⟨hAfter, hEdits⟩ := edits_meet_root hTag hLength hNodup hGiven
      exact ⟨_, rfl, LiveTree.root_meet_of_eq hTag, hAfter, hEdits⟩
  | cons index path ih =>
      by_cases hTag : old.tag = new.tag
      · obtain ⟨oldChild, hOldChild, hBelow⟩ : ∃ child, old.children[index]? = some child ∧
            (child.at? path).isSome = true := by
          have hAt := (VirtualTree.mem_positions old _).mp (List.mem_of_mem_filter hShared)
          obtain ⟨here, hHere⟩ := Option.isSome_iff_exists.mp hAt
          obtain ⟨child, hChild, hBelow⟩ := Option.bind_eq_some_iff.mp hHere
          exact ⟨child, hChild, by rw [hBelow]; rfl⟩
        obtain ⟨child, hChild, hSharedBelow⟩ := (VirtualTree.cons_mem_shared hTag hOldChild).mp hShared
        obtain ⟨below, hLive, hShapeBelow⟩ := LiveTree.exists_child_of_shape hShape hOldChild
        have hFoundBelow : below.at? path = some found := by
          rw [LiveTree.at?, hLive, Option.bind_some] at hFound
          exact hFound
        have hMem := LiveTree.root_mem_ids_of_at? path below hFoundBelow
        have hSub := LiveTree.ids_sublist (List.mem_of_getElem? hLive)
        rw [LiveTree.ids_eq] at hNodup hGiven
        obtain ⟨hRoot, hNodupBelow⟩ := List.nodup_cons.mp hNodup
        have hGivenBelow := hGiven.mono (Nat.le_refl _) (List.subset_cons_self _ _)
        have hNe : live.root ≠ found.root := fun hEq => hRoot (hEq ▸ hSub.subset hMem)
        obtain ⟨tag, fresh, news⟩ := new
        have hTag' : old.tag = tag := hTag
        -- The root and the other children are elsewhere, so the turn of the child tells it.
        obtain ⟨start, hStart, hTree, hMade⟩ := edits_meetAll_at index news next live.children
          old.children hLive hOldChild hChild hMem hNodupBelow hGivenBelow
        obtain ⟨after, hAfter, hRootAfter, hLength, hEdits⟩ := ih child start below oldChild
          hFoundBelow hSharedBelow hShapeBelow (hNodupBelow.sublist hSub)
          (hGivenBelow.mono hStart hSub.subset)
        refine ⟨after, ?_, hRootAfter, ?_, ?_⟩
        · rw [LiveTree.tree_meet_of_eq hTag', LiveTree.at?, LiveTree.children, hTree,
            Option.bind_some, hAfter]
        · rw [VirtualTree.childrenAt_cons hChild, hLength]
        · rw [VirtualTree.childrenAt_cons hChild, VirtualTree.childrenAt_cons hOldChild, ← hEdits,
            ← hMade, made_meet_of_eq hTag', editsOf_append, editsOf_append, editsOf_patchCalls,
            editsOf_editCalls, if_neg hNe, List.nil_append, List.append_nil]
      · exact absurd hShared (VirtualTree.not_mem_shared_of_ne hTag _)

end Turn

/-! ## Removals that succeed -/

/-- If the request of the moment is to take a child out, then there is one. -/
def Moment.Sure (moment : Moment H) : Prop :=
  ∀ parent index, moment.request = .removeChildAt parent index →
    index < (moment.arena.children parent).length

/-- A removal that succeeds answers the child and is on record. -/
theorem Arena.removeChildAt_of_lt {arena : Arena H} {parent : Handle} {index : Nat}
    (h : index < (arena.children parent).length) :
    (arena.removeChildAt parent index).1.isSome = true ∧
      (arena.removeChildAt parent index).2.calls = arena.calls ++ [.removeChildAt parent index] := by
  obtain ⟨node, hNode⟩ : ∃ node, arena.node? parent = some node := by
    cases hNode : arena.node? parent with
    | none =>
        rw [children, hNode] at h
        exact absurd h (Nat.not_lt_zero index)
    | some node => exact ⟨node, rfl⟩
  rw [children, hNode] at h
  obtain ⟨hChild, hRedrawn⟩ := redrawn_removeChildAt arena hNode h
  exact ⟨by rw [hChild]; rfl, hRedrawn.calls⟩

/-- A request that is no removal, or one that succeeds, is on record with its edit. -/
theorem Moment.Sure.edits {moment : Moment H} (h : moment.Sure) (id : Handle) :
    editsOf id moment.after.calls =
      editsOf id moment.arena.calls ++ (moment.request.edit? id).toList := by
  obtain ⟨arena, request⟩ := moment
  cases request with
  | removeChildAt parent index =>
      rw [Moment.after, Arena.answer, (Arena.removeChildAt_of_lt (h parent index rfl)).2]
      exact editsOf_concat id _ _
  | childAt parent index => exact (List.append_nil _).symm
  | _ => exact editsOf_concat id _ _

/-- **Where all removals succeed, the requests for edits are the calls on record.** -/
theorem Leads.edits {start stop : Arena H} {log : List (Moment H)} (h : Leads start log stop)
    (hSure : ∀ moment ∈ log, moment.Sure) (id : Handle) : editsOf id stop.calls =
      editsOf id start.calls ++ log.filterMap fun moment => moment.request.edit? id := by
  induction h with
  | nil => exact (List.append_nil _).symm
  | cons moment _ ih =>
      rw [List.forall_mem_cons] at hSure
      rw [ih hSure.2, hSure.1.edits id, List.append_assoc, List.filterMap_cons]
      cases moment.request.edit? id <;> rfl

namespace Script

theorem sure_of_ne {request : Request H} (h : ∀ parent index, request ≠ .removeChildAt parent index)
    (arena : Arena H) : Moment.Sure ⟨arena, request⟩ :=
  fun parent index hEq => absurd hEq (h parent index)

mutual

theorem sure_create : (tree : VirtualTree H) → (arena : Arena H) →
    (create tree).Always Moment.Sure arena
  | .node tag properties children, arena => by
      rw [create]
      refine (always_request (sure_of_ne (by simp) _)).bind (Always.bind ?_ (Always.bind
        (sure_createAll children _ _) (always_pure _ _)))
      refine always_requestAll (fun request hMem => sure_of_ne fun parent index hEq => ?_) _
      obtain ⟨⟨name, value⟩, -, rfl⟩ := List.mem_map.mp hMem
      cases value <;> cases hEq

theorem sure_createAll : (trees : List (VirtualTree H)) → (arena : Arena H) → (parent : Handle) →
    (createAll parent trees).Always Moment.Sure arena
  | [], arena, _ => always_pure () arena
  | tree :: rest, arena, parent => by
      rw [createAll]
      exact (sure_create tree arena).bind ((always_request (sure_of_ne (by simp) _)).bind
        (sure_createAll rest _ parent))

end

/-- The last children can be taken out, the last one first. -/
theorem sure_detachAll (count : Nat) (arena : Arena H) (parent : Handle) (node : Node H)
    (kept : Nat) (hNode : arena.node? parent = some node)
    (hCount : kept + count = node.children.length) :
    (requestAll ((List.range' kept count).reverse.map (Request.removeChildAt parent ·))).Always
      Moment.Sure arena := by
  induction count generalizing arena node with
  | zero => exact always_pure () arena
  | succ count ih =>
      have hIndex : kept + count < node.children.length := by omega
      obtain ⟨-, hRedrawn⟩ := Arena.redrawn_removeChildAt arena hNode hIndex
      rw [List.range'_1_concat, List.reverse_append, List.reverse_singleton, List.singleton_append,
        List.map_cons, requestAll]
      refine (always_request ?_).bind (ih _ _ hRedrawn.node?_first ?_)
      · rintro parent' index hEq
        obtain ⟨rfl, rfl⟩ := Request.removeChildAt.inj hEq
        rw [Arena.children, hNode]
        exact hIndex
      · rw [List.length_eraseIdx_of_lt hIndex]
        omega

/-- The needed edits take out children that are there. -/
theorem sure_applyEdits {arena : Arena H} {parent : Handle} {node : Node H} (after : List Handle)
    (hNode : arena.node? parent = some node) :
    (applyEdits parent (.needed node.children after node.children.length)).Always Moment.Sure
      arena := by
  have hKept := keptLength_le_left node.children after
  rw [applyEdits, Edits.needed]
  simp only [Nat.min_self]
  refine (sure_detachAll _ arena parent node _ hNode (by omega)).bind ?_
  refine always_requestAll (fun request hMem => sure_of_ne fun parent index hEq => ?_) _
  obtain ⟨child, -, rfl⟩ := List.mem_map.mp hMem
  cases hEq

/-- **All removals of a pass succeed.** -/
theorem rule_sure : Rule (H := H) Moment.Sure (fun _ => True) where
  step := fun _ _ _ => trivial
  create := fun tree arena _ => sure_create tree arena
  patch := by
    intro arena id node properties _ _
    refine always_requestAll (fun request hMem => sure_of_ne fun parent index hEq => ?_) _
    obtain ⟨entry, -, rfl⟩ := List.mem_map.mp hMem
    cases hEq
  childAt := fun arena parent index _ _ _ => sure_of_ne (by simp) arena
  dispose := fun arena live _ _ _ => sure_of_ne (by simp) arena
  edits := by
    intro arena id node lives olds news _ hNode hChildren hLives hNodup hParent hFollows
    obtain ⟨hEdits, -, -, hNodeNow⟩ :=
      redrawn_meetAll news hNode hChildren hLives hNodup hParent hFollows
    rw [hEdits]
    exact sure_applyEdits _ hNodeNow

end Script

/-! ## Lists that are left alone -/

/-- A request that is no edit leaves the list of a node alone that is there before
and afterwards. -/
theorem Arena.children_answer {arena : Arena H} {request : Request H} {id : Handle}
    (hThere : (arena.node? id).isSome = true)
    (hStays : ((arena.answer request).2.node? id).isSome = true) (hEdit : request.edit? id = none) :
    (arena.answer request).2.children id = arena.children id := by
  have hOther {parent : Handle} {edit : ListEdit}
      (hNone : (if parent = id then some edit else none) = none) : id ≠ parent := by
    rintro rfl
    rw [if_pos rfl] at hNone
    cases hNone
  cases request with
  | construct tag =>
      exact children_congr (arena.node?_construct_ne tag (gave_of_isSome hThere).ne_fresh)
  | setProperty other name value =>
      refine arena.children_alter_of_same other _ _ ?_ id
      exact fun node => rfl
  | attachHandler other event handler =>
      refine arena.children_alter_of_same other _ _ ?_ id
      exact fun node => rfl
  | addChild parent child => exact arena.children_alter_ne _ _ (hOther hEdit)
  | removeChildAt parent index =>
      rw [answer, removeChildAt]
      split
      · rfl
      · exact arena.children_alter_ne _ _ (hOther hEdit)
  | childAt parent index => rfl
  | dispose root =>
      refine children_congr ((Slots.node?_emptyAll arena.slots [root] id).resolve_left fun hNone => ?_)
      have hGone : (arena.answer (.dispose root)).2.node? id = none := hNone
      rw [hGone] at hStays
      cases hStays

theorem Leads.gave {start stop : Arena H} {log : List (Moment H)} (h : Leads start log stop)
    {id : Handle} (hGave : start.Gave id) : stop.Gave id := by
  induction h with
  | nil => exact hGave
  | cons moment _ ih => exact ih (hGave.answer moment.request)

/-- A node that is there at the start and in the end is there all along. -/
theorem Leads.there {start stop : Arena H} {log : List (Moment H)} (h : Leads start log stop)
    {id : Handle} (hStart : (start.node? id).isSome = true) (hStop : (stop.node? id).isSome = true) :
    ∀ moment ∈ log, (moment.arena.node? id).isSome = true ∧ (moment.after.node? id).isSome = true := by
  have hStays {first last : Arena H} {log : List (Moment H)} (hLeads : Leads first log last)
      (hGave : first.Gave id) (hLast : (last.node? id).isSome = true) :
      (first.node? id).isSome = true := by
    cases hFirst : first.node? id with
    | some node => rfl
    | none =>
        rw [hLeads.stays_gone hGave hFirst] at hLast
        cases hLast
  intro moment hMem
  obtain ⟨front, back, rfl⟩ := List.append_of_mem hMem
  obtain ⟨hFront, hBack⟩ := h.split
  have hGave := hFront.gave (Arena.gave_of_isSome hStart)
  have hAfter := hStays hBack (hGave.answer moment.request) hStop
  exact ⟨hStays (Leads.cons moment hBack) hGave hStop, hAfter⟩

/-! ## The edits of a pass -/

/-- What a pass does to the list of the children of a node that it keeps, where the
node had `before` children and is to have `now`, and the first `kept` stay. -/
structure Edited (log : List (Moment H)) (after : Arena H) (id : Handle) (before now kept : Nat) :
    Prop where
  /-- The places behind those that stay are taken out from the back, and then the
  children are appended that stand there in the end. -/
  edits : log.filterMap (fun moment => moment.request.edit? id) =
    editScript before kept (after.children id)
  /-- There are as many of them as there are to be. -/
  length : (after.children id).length = now
  /-- What is taken out is there. -/
  succeed : ∀ moment ∈ log, ∀ index, moment.request = .removeChildAt id index →
    (moment.arena.removeChildAt id index).1.isSome = true
  /-- No other request changes the list. -/
  untouched : ∀ moment ∈ log, moment.request.edit? id = none →
    moment.after.children id = moment.arena.children id

/-- If all removals succeed and the calls that were made edit a list that was there all
along, then the requests did it. -/
theorem Leads.edited {start stop : Arena H} {log : List (Moment H)} (h : Leads start log stop)
    (hSure : ∀ moment ∈ log, moment.Sure) {id : Handle} {made : List (Call H)}
    {before now kept : Nat} (hStart : (start.node? id).isSome = true)
    (hStop : (stop.node? id).isSome = true) (hCalls : stop.calls = start.calls ++ made)
    (hMade : editsOf id made = editScript before kept (stop.children id))
    (hLength : (stop.children id).length = now) : Edited log stop id before now kept where
  edits := by
    have hOnRecord := h.edits hSure id
    rw [hCalls, editsOf_append] at hOnRecord
    rw [← List.append_cancel_left hOnRecord, hMade]
  length := hLength
  succeed := fun moment hMem index hRequest =>
    (Arena.removeChildAt_of_lt (hSure moment hMem id index hRequest)).1
  untouched := by
    intro moment hMem hEdit
    obtain ⟨hThere, hStays⟩ := h.there hStart hStop moment hMem
    exact Arena.children_answer hThere hStays hEdit

/-- **The edits of a kept list.** At every shared position a pass makes the requests
that `Edited` tells, among all its others; so the counters of detached and attached
children are sums over these positions. -/
theorem edited_reconcile (arena : Arena H) (live : LiveTree H) (old new : VirtualTree H)
    (hHolds : arena.Holds live.nodes) (hNodup : live.ids.Nodup) (hShape : live.shape = old.shape) :
    let script := Script.reconcile (some live.root) (some old) (some new)
    let turned := (Pass.start arena).reconcile (some live.root) (some old) (some new)
    script.run arena = (turned.1, turned.2.arena) ∧
      (∀ path ∈ shared old new, ∃ id, arena.at? path live.root = some id ∧
        turned.1.bind (turned.2.arena.at? path) = some id ∧
        Edited (script.log arena) turned.2.arena id (old.childrenAt path).length
          (new.childrenAt path).length (agreeing (old.childrenAt path) (new.childrenAt path))) ∧
      turned.2.stats.detached = ((shared old new).map fun path =>
        (old.childrenAt path).length - agreeing (old.childrenAt path) (new.childrenAt path)).sum ∧
      turned.2.stats.attached = ((shared old new).map fun path =>
        (new.childrenAt path).length - agreeing (old.childrenAt path) (new.childrenAt path)).sum := by
  intro script turned
  let turn := meet arena.slots.length live old new
  have hFollows := LiveTree.follows_of_shape live old hShape
  have hOld := Pass.old_of_holds hHolds
  obtain ⟨hRoot, hStats, hRedrawn⟩ := Pass.turned_reconcile arena live old new hHolds hNodup hShape
  have hRun : script.run arena = (turned.1, turned.2.arena) :=
    Script.run_reconcile (.start arena) (some live.root) (some old) (some new)
  have hLeads := script.leads_log arena
  rw [hRun] at hLeads
  have hSure : script.Always Moment.Sure arena :=
    (Script.rule_sure.meet new arena live old trivial hHolds hNodup hFollows).map some
  have hSum : turn.stats = _ := LiveTree.stats_meet_eq new arena.slots.length live old hShape hOld
  rw [show turned.2.stats = turn.stats from hStats]
  refine ⟨hRun, fun path hShared => ?_, congrArg Stats.detached hSum, congrArg Stats.attached hSum⟩
  have hPosition := (VirtualTree.mem_positions old path).mp (List.mem_of_mem_filter hShared)
  obtain ⟨here, hHere⟩ := Option.isSome_iff_exists.mp hPosition
  obtain ⟨found, hFound, -⟩ := LiveTree.exists_found_of_shape path hShape hHere
  obtain ⟨hAt, hNode⟩ := Arena.at?_of_holds path hHolds hFound
  obtain ⟨now, hNow, hSame, hLength, hMade⟩ :=
    edits_meet_at path new _ live old hFound hShared hShape hNodup hOld
  obtain ⟨hAtNow, hNodeNow⟩ := Arena.at?_of_holds path hRedrawn.shows hNow
  rw [hSame] at hAtNow hNodeNow
  have hChildren : turned.2.arena.children found.root = now.children.map root := by
    rw [Arena.children, hNodeNow]
    rfl
  refine ⟨found.root, hAt, ?_, hLeads.edited hSure (congrArg Option.isSome hNode)
    (congrArg Option.isSome hNodeNow) hRedrawn.calls ?_ ?_⟩
  · rw [show turned.1 = some turn.tree.root from hRoot, Option.bind_some, hAtNow]
  · rw [hChildren]
    exact hMade
  · rw [hChildren, List.length_map, hLength]

/-- A list of three rows, the second of which becomes a group: the last two are taken
out, and the group and the last row are appended. -/
theorem edited_reconcile_group :
    let row : VirtualTree Unit := .node "row" .empty []
    let old : VirtualTree Unit := .node "list" .empty [row, row, row]
    let new : VirtualTree Unit := .node "list" .empty [row, .node "group" .empty [], row]
    let live := mount 0 old
    let arena := (Pass.create (.start .empty) old).2.arena
    let log := (Script.reconcile (some live.root) (some old) (some new)).log arena
    let turned := (Pass.start arena).reconcile (some live.root) (some old) (some new)
    arena.Holds live.nodes ∧ live.ids.Nodup ∧ live.shape = old.shape ∧
      Edited log turned.2.arena (.node 0) 3 3 1 ∧
      turned.2.stats.detached = 2 ∧ turned.2.stats.attached = 2 := by
  intro row old new live arena log
  have hHolds : arena.Holds live.nodes := (Pass.turned_create old (.start .empty)).2.arena.shows
  have hNodup : live.ids.Nodup := LiveTree.nodup_ids_mount old 0
  have hShape : live.shape = old.shape := LiveTree.shape_mount old 0
  have hShared : shared old new = [[], [0], [2]] := by decide +kernel
  obtain ⟨-, hLists, hDetached, hAttached⟩ :=
    edited_reconcile arena live old new hHolds hNodup hShape
  obtain ⟨id, hAt, -, hEdited⟩ := hLists [] (by rw [hShared]; exact List.mem_cons_self)
  obtain rfl : live.root = id := Option.some.inj hAt
  rw [hShared] at hDetached hAttached
  exact ⟨hHolds, hNodup, hShape, hEdited, hDetached, hAttached⟩

end LiveMarkup.Live
