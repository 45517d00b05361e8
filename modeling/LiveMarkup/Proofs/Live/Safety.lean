import LiveMarkup.Proofs.Live.Always
import LiveMarkup.Proofs.Live.Tidy

/-!
# A pass makes safe requests

Every request of a pass is safe in the arena to which it is made. For most of
them this says that a live tree stands where the pass is at work, which the
accounts of `LiveMarkup.Proofs.Live.Pass` tell. For the requests that append a
child there is more to it: the child must hang nowhere.

A child is appended where it was constructed, or where it was taken out just
before. A handle that has not been given out stands in no child list of a tidy
arena, and one that is in a child list stands in no other. So in both cases the
child is free, whatever else is in the arena.

## Main results

* `not_listed` — calls that do not list a handle leave it free.
* `safe_create`, `rule_safe` — **the requests of a pass are safe**.
* `careful_run` — **no run uses or disposes of a node after it was disposed of**,
  and a pass disposes once of everything that it leaves behind.
-/

namespace LiveMarkup.Live

open LiveTree (root nodes nodesAll idsAll links mount mountAll)

variable {H : Type} {α β : Type} {n : Nat}

/-! ## Handles that are free -/

/-- Calls that do not list a handle keep it out of a child list, if it was in
the list only where they were at work. -/
theorem Arena.Redrawn.not_listed {before after : Arena H} {gone : List Handle}
    {shown : List (Handle × Node H)} {fresh : Nat} {made : List (Call H)}
    (h : before.Redrawn after gone shown fresh made) {id parent : Handle} (hShown : id ∉ links shown)
    (hKept : parent ∉ gone → parent ∉ shown.map Prod.fst → id ∉ before.children parent) :
    id ∉ after.children parent := by
  intro hMem
  by_cases hIn : parent ∈ shown.map Prod.fst
  · exact hShown (mem_links_of_holds h.shows hIn hMem)
  · by_cases hGone : parent ∈ gone
    · rw [Arena.children_eq, h.empties parent hGone hIn] at hMem
      cases hMem
    · rw [Arena.children_congr (h.keeps parent hGone hIn)] at hMem
      exact hKept hGone hIn hMem

/-- A handle that has not been given out is free. -/
theorem Arena.Tidy.not_listed {arena : Arena H} (h : arena.Tidy) {id : Handle} {fresh : Nat}
    (hFresh : id.IsFresh arena.slots.length fresh) (parent : Handle) :
    id ∉ arena.children parent := by
  intro hMem
  obtain ⟨number, rfl, hLe, -⟩ := hFresh
  obtain ⟨number', hEq, hLt⟩ := h.gave parent _ hMem
  cases hEq
  omega

namespace Script

/-- All requests that a script makes are safe. -/
abbrev Safe (script : Script H α) (arena : Arena H) : Prop :=
  script.Always Moment.Safe arena

/-- **Safe scripts keep an arena tidy.** -/
theorem Safe.tidy {script : Script H α} {arena : Arena H} (h : script.Safe arena)
    (hTidy : arena.Tidy) : (script.run arena).2.Tidy :=
  (script.leads_log arena).tidy h hTidy

/-! ## Requests about one node -/

/-- A request that reads or changes one node and takes nothing away. -/
def Handles (id : Handle) : Request H → Prop
  | .setProperty other _ _ | .attachHandler other _ _ => other = id
  | .removeChildAt other _ | .childAt other _ => other = id
  | _ => False

/-- Requests about a node that is there are safe. -/
theorem safe_requestAll {id : Handle} {requests : List (Request H)} {arena : Arena H}
    (hThere : (arena.node? id).isSome = true) (hHandles : ∀ request ∈ requests, Handles id request) :
    (requestAll requests).Safe arena := by
  induction requests generalizing arena with
  | nil => exact always_pure () arena
  | cons first rest ih =>
      rw [List.forall_mem_cons] at hHandles
      obtain ⟨hFirst, hRest⟩ := hHandles
      have hSafe : first.SafeIn arena := by
        cases first <;> first | exact hFirst.elim | exact hFirst ▸ hThere
      have hThere' : ((arena.answer first).2.node? id).isSome = true := by
        refine (Arena.isSome_node?_answer hThere).resolve_right ?_
        rintro ⟨root, rfl⟩
        exact hFirst
      exact (always_request hSafe).bind (ih hThere' hRest)

theorem safe_initialise {id : Handle} {arena : Arena H}
    (hThere : (arena.node? id).isSome = true) (properties : Properties H) :
    (initialise id properties).Safe arena := by
  refine safe_requestAll hThere fun request hMem => ?_
  obtain ⟨⟨name, value⟩, -, rfl⟩ := List.mem_map.mp hMem
  cases value <;> rfl

theorem safe_patch {id : Handle} {arena : Arena H} (hThere : (arena.node? id).isSome = true)
    (properties : Properties H) : (patch id properties).Safe arena := by
  refine safe_requestAll hThere fun request hMem => ?_
  obtain ⟨entry, -, rfl⟩ := List.mem_map.mp hMem
  rfl

/-- Appending children that are there and free is safe. -/
theorem safe_attachAll {parent : Handle} {children : List Handle} {arena : Arena H}
    (hParent : (arena.node? parent).isSome = true) (hNodup : children.Nodup)
    (hThere : ∀ child ∈ children, (arena.node? child).isSome = true)
    (hFree : ∀ child ∈ children, ∀ other, child ∉ arena.children other) :
    (requestAll (children.map (Request.addChild parent ·))).Safe arena := by
  induction children generalizing arena with
  | nil => exact always_pure () arena
  | cons child rest ih =>
      rw [List.nodup_cons] at hNodup
      rw [List.forall_mem_cons] at hThere hFree
      have hSafe : (Request.addChild parent child).SafeIn arena := ⟨hParent, hThere.1, hFree.1⟩
      have hStays {id : Handle} (hIs : (arena.node? id).isSome = true) :
          ((arena.addChild parent child).node? id).isSome = true :=
        (Slots.isSome_node?_alter _ _ _ _).trans hIs
      refine (always_request hSafe).bind (ih (hStays hParent) hNodup.2
        (fun other hMem => hStays (hThere.2 other hMem)) fun other hMem id hIn => ?_)
      have hIn' : other ∈ (arena.addChild parent child).children id := hIn
      rw [Arena.children_addChild hParent] at hIn'
      split at hIn'
      · rcases List.mem_append.mp hIn' with hOld | hLast
        · exact hFree.2 other hMem parent hOld
        · exact hNodup.1 (List.mem_singleton.mp hLast ▸ hMem)
      · exact hFree.2 other hMem id hIn'

/-! ## Constructing -/

/-- A tree that has been constructed hangs nowhere. -/
theorem free_create {arena : Arena H} (hTidy : arena.Tidy) (tree : VirtualTree H)
    (other : Handle) : ((create tree).run arena).1 ∉ ((create tree).run arena).2.children other := by
  obtain ⟨hRoot, hRedrawn⟩ := redrawn_create tree arena
  have hFresh : (Handle.node arena.slots.length).IsFresh arena.slots.length 1 :=
    ⟨arena.slots.length, rfl, Nat.le_refl _, Nat.lt_add_one _⟩
  rw [hRoot]
  refine hRedrawn.not_listed ?_ (fun _ _ => hTidy.not_listed hFresh other)
  intro hMem
  have hNodup := LiveTree.nodup_ids_mount tree arena.slots.length
  exact (LiveTree.mem_ids_of_mem_links hNodup hMem).2 (LiveTree.root_mount tree _).symm

mutual

/-- **Constructing a tree makes safe requests.** -/
theorem safe_create : (tree : VirtualTree H) → (arena : Arena H) → arena.Tidy →
    (create tree).Safe arena
  | .node tag properties children, arena, hTidy => by
      have hBare : (((arena.construct tag).2).node? arena.fresh).isSome = true :=
        congrArg Option.isSome (arena.node?_construct_self tag)
      have hConstruct : (request (.construct tag)).Safe arena := always_request trivial
      have hInitialise := safe_initialise hBare properties
      have hDressed : ((((initialise arena.fresh properties).run (arena.construct tag).2).2).node?
          arena.fresh).isSome = true := by
        obtain ⟨node, hNode⟩ := Option.isSome_iff_exists.mp hBare
        rw [run_initialise, (Pass.redrawn_initialise _ hNode properties).node?_first]
        rfl
      rw [create]
      refine hConstruct.bind (hInitialise.bind (Always.bind ?_ (always_pure _ _)))
      exact safe_createAll children _ arena.fresh (hInitialise.tidy (hConstruct.tidy hTidy)) hDressed

theorem safe_createAll : (trees : List (VirtualTree H)) → (arena : Arena H) →
    (parent : Handle) → arena.Tidy → (arena.node? parent).isSome = true →
    (createAll parent trees).Safe arena
  | [], arena, _, _, _ => always_pure () arena
  | tree :: rest, arena, parent, hTidy, hParent => by
      have hFirst := safe_create tree arena hTidy
      obtain ⟨hRoot, hRedrawn⟩ := redrawn_create tree arena
      have hParent' : (((create tree).run arena).2.node? parent).isSome = true := by
        obtain ⟨node, hNode⟩ := Option.isSome_iff_exists.mp hParent
        rw [node?_create hNode tree]
        rfl
      have hChild : (((create tree).run arena).2.node? ((create tree).run arena).1).isSome = true := by
        rw [hRoot, ← LiveTree.root_mount tree arena.slots.length]
        exact LiveTree.isSome_node?_of_holds hRedrawn.shows (LiveTree.root_mem_ids _)
      have hAdd : (request (.addChild parent ((create tree).run arena).1)).Safe
          ((create tree).run arena).2 :=
        always_request ⟨hParent', hChild, free_create hTidy tree⟩
      rw [createAll]
      refine hFirst.bind (hAdd.bind ?_)
      exact safe_createAll rest _ parent (hAdd.tidy (hFirst.tidy hTidy))
        ((Slots.isSome_node?_alter _ _ _ _).trans hParent')

end

/-! ## The edits of a list of children -/

/-- Making edits is safe if the children to be appended are free once those to be
taken out are. -/
theorem safe_applyEdits {parent : Handle} {node : Node H} {after : List Handle} {arena : Arena H}
    (hNode : arena.node? parent = some node) (hNodup : after.Nodup)
    (hThere : ∀ child ∈ after, child ≠ parent ∧ (arena.node? child).isSome = true)
    (hFree : ∀ child ∈ after, ∀ other, other ≠ parent → child ∉ arena.children other) :
    (applyEdits parent (.needed node.children after node.children.length)).Safe arena := by
  have hParent : (arena.node? parent).isSome = true := by rw [hNode]; rfl
  have hKept := keptLength_le_left node.children after
  generalize hCut : LiveTree.keptLength node.children after = kept at hKept
  have hTake : node.children.take kept = after.take kept := hCut ▸ take_keptLength _ _
  have hDetached := (Pass.turned_detachAll (node.children.length - kept) (.start arena) parent
    node kept hNode (by omega)).arena
  have hRun : (requestAll ((List.range' kept (node.children.length - kept)).reverse.map
      (Request.removeChildAt parent ·))).run arena = _ := run_detachAll _ (.start arena) parent
  rw [applyEdits, Edits.needed]
  simp only [Nat.min_self, hCut]
  refine (safe_requestAll hParent fun request hMem => ?_).bind ?_
  · obtain ⟨index, -, rfl⟩ := List.mem_map.mp hMem
    rfl
  · rw [hRun]
    have hOther {id : Handle} (hNe : id ≠ parent) : ((Pass.start arena).detachAll parent
        (List.range' kept (node.children.length - kept))).arena.node? id = arena.node? id :=
      hDetached.keeps id (by simp) (by simpa using hNe)
    refine safe_attachAll ?_ (hNodup.sublist (List.drop_sublist kept after)) ?_ ?_
    · rw [hDetached.node?_first]
      rfl
    · intro child hMem
      obtain ⟨hNe, hIs⟩ := hThere child (List.mem_of_mem_drop hMem)
      rw [hOther hNe]
      exact hIs
    · intro child hMem other hIn
      by_cases hEq : other = parent
      · -- The children that are left to the parent are those in front.
        rw [hEq, Arena.children, hDetached.node?_first] at hIn
        have hFront : child ∈ after.take kept := hTake ▸ hIn
        rw [← List.take_append_drop kept after, List.nodup_append] at hNodup
        exact hNodup.2.2 child hFront child hMem rfl
      · rw [Arena.children_congr (hOther hEq)] at hIn
        exact hFree child (List.mem_of_mem_drop hMem) other hEq hIn

/-! ## Positions that both trees have -/

/-- What hangs below a node is listed by the node or below it. -/
theorem exists_parent {arena : Arena H} {id child : Handle} {lives : List (LiveTree H)}
    (hChildren : arena.children id = lives.map root) (hLives : arena.Holds (nodesAll lives))
    (hMem : child ∈ idsAll lives) :
    ∃ parent, (parent = id ∨ parent ∈ idsAll lives) ∧ child ∈ arena.children parent := by
  have hSplit := (LiveTree.roots_append_links_perm lives).mem_iff.mpr hMem
  rcases List.mem_append.mp hSplit with hRoot | hLink
  · exact ⟨id, .inl rfl, hChildren ▸ hRoot⟩
  · obtain ⟨entry, hEntry, hIn⟩ := List.mem_flatMap.mp hLink
    have hNode : arena.node? entry.1 = some entry.2 := hLives entry hEntry
    refine ⟨entry.1, .inr (List.mem_map_of_mem hEntry), ?_⟩
    rw [Arena.children, hNode]
    exact hIn

/-- **The new children of a kept node are free** once its positions have been
compared, but for the old child list of the node itself. -/
theorem free_meetAll {before after : Arena H} {id : Handle} {node : Node H}
    {lives : List (LiveTree H)} {olds news : List (VirtualTree H)} {made : List (Call H)}
    {fresh : Nat} (h : before.Redrawn after (idsAll lives)
      (nodesAll (LiveTree.meetAll before.slots.length lives olds news).trees) fresh made)
    (hTidy : before.Tidy) (hNode : before.node? id = some node)
    (hChildren : node.children = lives.map root) (hLives : before.Holds (nodesAll lives))
    (hNodup : (idsAll lives).Nodup) {child other : Handle}
    (hChild : child ∈ (LiveTree.meetAll before.slots.length lives olds news).trees.map root)
    (hOther : other ≠ id) : child ∉ after.children other := by
  have hWhole := LiveTree.nodup_idsAll_meetAll news before.slots.length lives olds hNodup
    (Pass.old_of_holds hLives)
  have hPerm := LiveTree.roots_append_links_perm
    (LiveTree.meetAll before.slots.length lives olds news).trees
  have hIn := hPerm.mem_iff.mp (List.mem_append_left _ hChild)
  refine h.not_listed ?_ fun hGone _ hListed => ?_
  · intro hLink
    exact (List.nodup_append.mp (hPerm.nodup_iff.mpr hWhole)).2.2 child hChild child hLink rfl
  · rcases LiveTree.mem_idsAll_meetAll news _ lives olds child hIn with hOld | hFresh
    · -- An old child is listed once, and that is where the pass was at work.
      have hList : before.children id = lives.map root := by
        rw [Arena.children, hNode]
        exact hChildren
      obtain ⟨parent, hParent, hHere⟩ := exists_parent hList hLives hOld
      obtain rfl := hTidy.parent other parent child hListed hHere
      exact hParent.elim hOther hGone
    · exact hTidy.not_listed hFresh other hListed

/-- The edits that a pass makes below a kept node are safe. -/
theorem safe_edits {arena : Arena H} {id : Handle} {node : Node H} {lives : List (LiveTree H)}
    {olds : List (VirtualTree H)} (news : List (VirtualTree H)) (hTidy : arena.Tidy)
    (hNode : arena.node? id = some node) (hChildren : node.children = lives.map root)
    (hLives : arena.Holds (nodesAll lives)) (hNodup : (idsAll lives).Nodup)
    (hParent : id ∉ idsAll lives) (hFollows : LiveTree.FollowsAll lives olds) :
    (applyEdits id ((meetAll id 0 .none olds news).run arena).1).Safe
      ((meetAll id 0 .none olds news).run arena).2 := by
  obtain ⟨hEdits, hRedrawn, hApart, hNodeNow⟩ :=
    redrawn_meetAll news hNode hChildren hLives hNodup hParent hFollows
  have hWhole := LiveTree.nodup_idsAll_meetAll news arena.slots.length lives olds hNodup
    (Pass.old_of_holds hLives)
  have hPerm := LiveTree.roots_append_links_perm
    (LiveTree.meetAll arena.slots.length lives olds news).trees
  rw [hEdits]
  refine safe_applyEdits hNodeNow (List.nodup_append.mp (hPerm.nodup_iff.mpr hWhole)).1
    (fun child hChild => ?_) fun child hChild other hOther => ?_
  · have hIn := hPerm.mem_iff.mp (List.mem_append_left _ hChild)
    obtain ⟨entry, hEntry, rfl⟩ := List.mem_map.mp hIn
    refine ⟨fun hEq => hApart (hEq ▸ hIn), ?_⟩
    exact congrArg Option.isSome (hRedrawn.shows entry hEntry)
  · exact free_meetAll hRedrawn hTidy hNode hChildren hLives hNodup hChild hOther

/-- **The requests of a pass are safe** in a tidy arena. -/
theorem rule_safe : Rule (H := H) Moment.Safe Arena.Tidy where
  step := fun _ hTidy hSafe => Arena.tidy_answer hTidy hSafe
  create := safe_create
  patch := fun _ _ _ properties _ hNode => safe_patch (by rw [hNode]; rfl) properties
  childAt := fun _ _ _ _ _ hNode => congrArg Option.isSome hNode
  dispose := fun _ live _ hHolds hNodup => ⟨live, rfl, hHolds, hNodup⟩
  edits := fun _ _ _ _ _ news hTidy hNode hChildren hLives hNodup hParent hFollows =>
    safe_edits news hTidy hNode hChildren hLives hNodup hParent hFollows

end Script

/-! ## Runs -/

/-- The script of a rebuild. -/
def Retained.script (retained : Retained H) (new : VirtualTree H) : Script H (Option Handle) :=
  .reconcile retained.root retained.previous (some new)

/-- **A rebuild is the run of its script.** -/
theorem Retained.run_script (retained : Retained H) (new : VirtualTree H) (arena : Arena H) :
    (retained.script new).run arena =
      ((retained.rebuild arena new).retained.root, (retained.rebuild arena new).arena) :=
  Script.run_reconcile (.start arena) retained.root retained.previous (some new)

/-- **A rebuild makes safe requests.** -/
theorem Retained.safe_script {retained : Retained H} {arena : Arena H} {view : View H}
    (hShows : retained.Shows arena view) (hTidy : arena.Tidy) (new : VirtualTree H) :
    (retained.script new).Safe arena := by
  cases view with
  | none =>
      obtain rfl := hShows
      exact (Script.always_pure () arena).bind ((Script.safe_create new arena hTidy).map some)
  | some shown =>
      obtain ⟨live, old⟩ := shown
      have hFollows := LiveTree.follows_of_shape live old hShows.shape
      rw [script, hShows.root, hShows.previous]
      exact (Script.rule_safe.meet new arena live old hTidy hShows.holds hShows.nodup hFollows).map some

namespace Shared

/-- The requests that a rebuild of a view makes. -/
def passLog (world : Shared H n) (who : Fin n) (new : VirtualTree H) : List (Moment H) :=
  ((world.bindings who).retained.script new).log world.arena

/-- The requests that further rebuilds make. -/
def logFrom (world : Shared H n) : List (Fin n × VirtualTree H) → List (Moment H)
  | [] => []
  | step :: rest =>
    world.passLog step.1 step.2 ++ (world.rebuild step.1 step.2).logFrom rest

/-- The requests that a run makes. -/
def log (steps : List (Fin n × VirtualTree H)) : List (Moment H) :=
  start.logFrom steps

theorem leads_passLog (world : Shared H n) (who : Fin n) (new : VirtualTree H) :
    Leads world.arena (world.passLog who new) (world.rebuild who new).arena := by
  have hLeads := ((world.bindings who).retained.script new).leads_log world.arena
  rw [Retained.run_script] at hLeads
  exact hLeads

theorem leads_logFrom (world : Shared H n) (steps : List (Fin n × VirtualTree H)) :
    Leads world.arena (world.logFrom steps)
      (steps.foldl (fun world step => world.rebuild step.1 step.2) world).arena := by
  induction steps generalizing world with
  | nil => exact .nil world.arena
  | cons step rest ih => exact (world.leads_passLog step.1 step.2).append (ih _)

theorem safe_passLog {world : Shared H n} {views : Fin n → View H} (h : world.Displays views)
    (hTidy : world.arena.Tidy) (who : Fin n) (new : VirtualTree H) :
    ∀ moment ∈ world.passLog who new, moment.Safe :=
  Retained.safe_script (h.shows who) hTidy new

theorem tidy_rebuild {world : Shared H n} {views : Fin n → View H} (h : world.Displays views)
    (hTidy : world.arena.Tidy) (who : Fin n) (new : VirtualTree H) :
    (world.rebuild who new).arena.Tidy :=
  (world.leads_passLog who new).tidy (safe_passLog h hTidy who new) hTidy

theorem safe_logFrom {world : Shared H n} {views : Fin n → View H} (h : world.Displays views)
    (hTidy : world.arena.Tidy) (steps : List (Fin n × VirtualTree H)) :
    ∀ moment ∈ world.logFrom steps, moment.Safe := by
  induction steps generalizing world views with
  | nil => exact fun _ hMem => absurd hMem List.not_mem_nil
  | cons step rest ih =>
      rw [logFrom, List.forall_mem_append]
      exact ⟨safe_passLog h hTidy step.1 step.2,
        ih (h.displays_rebuild step.1 step.2) (tidy_rebuild h hTidy step.1 step.2)⟩

theorem tidy_run (steps : List (Fin n × VirtualTree H)) : (run steps).arena.Tidy :=
  (start.leads_logFrom steps).tidy (safe_logFrom Displays.displays_start Arena.tidy_empty steps)
    Arena.tidy_empty

/-- **No run uses or disposes of a node after it was disposed of.** Take any run of
rebuilds, of one view or of several in one arena. Its requests lead from the empty
arena to the arena of the run, and they are careful. A node that is gone after one
more pass lies in one of the subtrees that this pass disposes of, and in no other. -/
theorem careful_run (steps : List (Fin n × VirtualTree H)) :
    Leads .empty (log steps) (run steps).arena ∧ Careful (log steps) ∧
      ∀ who new id, ((run steps).arena.node? id).isSome = true →
        ((run steps).rebuild who new).arena.node? id = none →
        ∃ front moment back, (run steps).passLog who new = front ++ moment :: back ∧
          moment.Disposes id ∧ ∀ other ∈ front ++ back, ¬ other.Disposes id := by
  have hLeads : Leads .empty (log steps) (run steps).arena := start.leads_logFrom steps
  refine ⟨hLeads, careful_of_leads hLeads
    (safe_logFrom Displays.displays_start Arena.tidy_empty steps), ?_⟩
  intro who new id hThere hGone
  obtain ⟨views, hDisplays⟩ := exists_displays_run steps
  have hPass := (run steps).leads_passLog who new
  have hSafe := safe_passLog hDisplays (tidy_run steps) who new
  exact hPass.disposed_once hSafe hThere hGone

/-- A page whose first row becomes a list: the node of the row is gone after the
second pass, which has disposed of it. -/
theorem careful_run_replaced :
    let page : VirtualTree Unit := .node "page" .empty [.node "row" .empty [], .node "bar" .empty []]
    let changed : VirtualTree Unit :=
      .node "page" .empty [.node "list" .empty [], .node "bar" .empty []]
    let world : Shared Unit 1 := run [(0, page)]
    (world.arena.node? (.node 1)).isSome = true ∧
      (world.rebuild 0 changed).arena.node? (.node 1) = none ∧ Careful (log [((0 : Fin 1), page)]) ∧
      ∃ moment ∈ world.passLog 0 changed, moment.Disposes (.node 1) := by
  intro page changed world
  have hDisplays := (Displays.displays_start (H := Unit) (n := 1)).displays_rebuild 0 page
  have hThere : (world.arena.node? (.node 1)).isSome = true := rfl
  have hGone : (world.rebuild 0 changed).arena.node? (.node 1) = none :=
    (Retained.redrawn_rebuild (hDisplays.shows 0) changed).empties (.node 1) (by decide) (by decide)
  obtain ⟨-, hCareful, hPass⟩ := careful_run [((0 : Fin 1), page)]
  obtain ⟨front, moment, back, hLog, hDisposes, -⟩ := hPass 0 changed (.node 1) hThere hGone
  refine ⟨hThere, hGone, hCareful, moment, ?_, hDisposes⟩
  rw [hLog]
  exact List.mem_append_right _ List.mem_cons_self

end Shared

end LiveMarkup.Live
