import LiveMarkup.Proofs.Live.Script

/-!
# What holds of all requests of a pass

`Script.Always P` says that a script makes no request but at moments with the
property `P`. It is put together along the script: what holds of the requests of
two scripts holds of one behind the other.

For a pass this comes down to a few kinds of requests. `Script.Rule P I` lists them,
each with what is known of the arena when it is made, where `I` is a property of
arenas that the requests preserve. Whatever has the rule holds all along a pass, and
the recursion over the two trees is gone through here once.

## Main results

* `redrawn_meetAll` — what has been done before the list of a kept node is edited.
* `Rule.createRest`, `Rule.dropRest` — positions that only one of the trees has.
* `Rule.meet` — **a rule holds all along a pass**.
-/

namespace LiveMarkup.Live

open LiveTree (root nodes nodesAll idsAll mount)

variable {H : Type} {α β : Type}

namespace Script

/-- All requests of a script are made at moments with the property. -/
def Always (P : Moment H → Prop) (script : Script H α) (arena : Arena H) : Prop :=
  ∀ moment ∈ script.log arena, P moment

section Always

variable {P : Moment H → Prop} {arena : Arena H}

theorem always_pure (result : α) (arena : Arena H) : (pure result : Script H α).Always P arena :=
  fun _ hMem => absurd hMem List.not_mem_nil

theorem always_request {request : Request H} (h : P ⟨arena, request⟩) :
    (Script.request request).Always P arena := by
  intro moment hMem
  rw [List.mem_singleton.mp hMem]
  exact h

theorem Always.bind {script : Script H α} {next : α → Script H β} (h : script.Always P arena)
    (hNext : (next (script.run arena).1).Always P (script.run arena).2) :
    (script >>= next).Always P arena := by
  intro moment hMem
  rw [log_bind, List.mem_append] at hMem
  exact hMem.elim (h moment) (hNext moment)

theorem Always.map {script : Script H α} (h : script.Always P arena) (f : α → β) :
    (f <$> script).Always P arena := by
  rw [Always, log_map]
  exact h

/-- Requests that are right in every arena are right in a row. -/
theorem always_requestAll {requests : List (Request H)}
    (h : ∀ request ∈ requests, ∀ arena, P ⟨arena, request⟩) (arena : Arena H) :
    (requestAll requests).Always P arena := by
  induction requests generalizing arena with
  | nil => exact always_pure () arena
  | cons first rest ih =>
      rw [List.forall_mem_cons] at h
      exact (always_request (h.1 arena)).bind (ih h.2 _)

/-- What every request preserves holds when the script is over. -/
theorem Always.preserves {script : Script H α} (h : script.Always P arena) {I : Arena H → Prop}
    (hStep : ∀ moment : Moment H, I moment.arena → P moment → I moment.after) (hStart : I arena) :
    I (script.run arena).2 := by
  have hLeads := script.leads_log arena
  rw [Always] at h
  generalize script.log arena = log at hLeads h
  generalize (script.run arena).2 = stop at hLeads ⊢
  induction hLeads with
  | nil => exact hStart
  | cons moment _ ih =>
      rw [List.forall_mem_cons] at h
      exact ih (hStep moment hStart h.1) h.2

end Always

/-! ## What constructing a tree leaves alone -/

/-- What the script that constructs a tree does to an arena. -/
theorem redrawn_create (tree : VirtualTree H) (arena : Arena H) :
    ((create tree).run arena).1 = .node arena.slots.length ∧
      arena.Redrawn ((create tree).run arena).2 [] (mount arena.slots.length tree).nodes
        tree.count (LiveTree.mountCalls arena.slots.length tree) := by
  have hRun : (create tree).run arena = _ := run_create tree (.start arena)
  obtain ⟨hRoot, hTurned⟩ := Pass.turned_create tree (.start arena)
  rw [hRun]
  exact ⟨hRoot, hTurned.arena⟩

/-- A node that is there stays as it is while a tree is constructed. -/
theorem node?_create {arena : Arena H} {id : Handle} {node : Node H}
    (hNode : arena.node? id = some node) (tree : VirtualTree H) :
    ((create tree).run arena).2.node? id = some node :=
  ((redrawn_create tree arena).2.keeps id (by simp) (Pass.not_mem_mount hNode tree)).trans hNode

/-! ## Rules -/

/-- What has to be shown of the requests of a pass for a property of moments to hold
of all of them, where `I` is known of the arenas. -/
structure Rule (P : Moment H → Prop) (I : Arena H → Prop) : Prop where
  /-- A request of this kind preserves what is known of the arenas. -/
  step : ∀ moment : Moment H, I moment.arena → P moment → I moment.after
  /-- A tree is constructed. -/
  create : ∀ tree arena, I arena → (create tree).Always P arena
  /-- A node that is there gets new properties. -/
  patch : ∀ arena id node properties, I arena → arena.node? id = some node →
    (patch id properties).Always P arena
  /-- A node that is there is asked for a child. -/
  childAt : ∀ arena parent index node, I arena → arena.node? parent = some node →
    P ⟨arena, .childAt parent index⟩
  /-- A live tree is disposed of. -/
  dispose : ∀ (arena : Arena H) (live : LiveTree H), I arena → arena.Holds live.nodes →
    live.ids.Nodup → P ⟨arena, .dispose live.root⟩
  /-- The list of the children of a kept node is edited once they have been compared. -/
  edits : ∀ (arena : Arena H) (id : Handle) (node : Node H) (lives : List (LiveTree H)) olds news,
    I arena → arena.node? id = some node → node.children = lives.map root →
    arena.Holds (nodesAll lives) → (idsAll lives).Nodup → id ∉ idsAll lives →
    LiveTree.FollowsAll lives olds →
    (applyEdits id ((meetAll id 0 .none olds news).run arena).1).Always P
      ((meetAll id 0 .none olds news).run arena).2

/-- What the script that compares the children of a node leaves: the edits that their
list needs, the new trees, and the node itself as it was. -/
theorem redrawn_meetAll {arena : Arena H} {id : Handle} {node : Node H} {lives : List (LiveTree H)}
    {olds : List (VirtualTree H)} (news : List (VirtualTree H))
    (hNode : arena.node? id = some node) (hChildren : node.children = lives.map root)
    (hLives : arena.Holds (nodesAll lives)) (hNodup : (idsAll lives).Nodup)
    (hParent : id ∉ idsAll lives) (hFollows : LiveTree.FollowsAll lives olds) :
    let turns := LiveTree.meetAll arena.slots.length lives olds news
    let compared := (meetAll id 0 .none olds news).run arena
    compared.1 = .needed node.children (turns.trees.map root) node.children.length ∧
      arena.Redrawn compared.2 (idsAll lives) (nodesAll turns.trees) turns.stats.created turns.made ∧
      id ∉ idsAll turns.trees ∧ compared.2.node? id = some node := by
  intro turns compared
  obtain ⟨hEdits, hTurned⟩ := Pass.turned_meetAll news (.start arena) id node [] lives olds hNode
    hChildren hLives hNodup hParent hFollows
  simp only [List.length_nil, List.nil_append, Edits.needed_start] at hEdits hTurned
  have hRun : compared = _ := run_meetAll news (.start arena) id 0 .none olds
  have hApart := Pass.not_mem_meetAll hNode hParent olds news
  rw [hRun]
  exact ⟨hEdits, hTurned.arena, hApart, (hTurned.arena.keeps id hParent hApart).trans hNode⟩

theorem meet_none (old new : VirtualTree H) : (meet none old new : Script H Handle) = create new := by
  cases new
  rw [meet]

namespace Rule

variable {P : Moment H → Prop} {I : Arena H → Prop}

/-- Constructing trees in a row. -/
theorem createRest (rule : Rule P I) (news : List (VirtualTree H)) (arena : Arena H) (index : Nat)
    (edits : Edits) (hI : I arena) : (createRest index edits news).Always P arena := by
  induction news generalizing arena index edits with
  | nil => exact always_pure edits arena
  | cons new news ih =>
      have hFirst := rule.create new arena hI
      exact hFirst.bind (ih _ _ _ (hFirst.preserves rule.step hI))

/-- A script that asks for a child of a node that is there. -/
theorem ask (rule : Rule P I) {parent : Handle} {arena : Arena H} {node : Node H} (index : Nat)
    {next : Option Handle → Script H α} (hI : I arena) (hNode : arena.node? parent = some node)
    (hNext : (next (arena.childAt? parent index)).Always P arena) :
    (request (.childAt parent index) >>= next).Always P arena := by
  have hAsk : (request (.childAt parent index)).Always P arena :=
    always_request (rule.childAt arena parent index node hI hNode)
  exact hAsk.bind hNext

/-- Dropping positions. -/
theorem dropRest (rule : Rule P I) (olds : List (VirtualTree H)) (arena : Arena H) (parent : Handle)
    (node : Node H) (index : Nat) (edits : Edits) (lives : List (LiveTree H)) (hI : I arena)
    (hNode : arena.node? parent = some node) (hDrop : node.children.drop index = lives.map root)
    (hHolds : arena.Holds (nodesAll lives)) (hNodup : (idsAll lives).Nodup)
    (hParent : parent ∉ idsAll lives) : (dropRest parent index edits olds).Always P arena := by
  induction olds generalizing arena index edits lives with
  | nil => exact always_pure edits arena
  | cons old olds ih =>
      have hLive : arena.childAt? parent index = lives.head?.map root :=
        Arena.childAt?_of_drop hNode hDrop
      refine rule.ask index hI hNode ?_
      rw [hLive]
      cases lives with
      | nil =>
          have hDrop' : node.children.drop (index + 1) = [] := by
            rw [← List.drop_drop, hDrop, List.map_nil, List.drop_nil]
          exact (always_pure () arena).bind
            (ih arena (index + 1) _ [] hI hNode hDrop' hHolds hNodup hParent)
      | cons live lives =>
          rw [nodesAll, Arena.Holds, Slots.holds_append] at hHolds
          rw [LiveTree.idsAll_cons, List.nodup_append] at hNodup
          rw [LiveTree.idsAll_cons, List.mem_append, not_or] at hParent
          have hDispose : (request (.dispose live.root)).Always P arena :=
            always_request (rule.dispose arena live hI hHolds.1 hNodup.1)
          have hGone := Pass.turned_dispose (.start arena) live hHolds.1 hNodup.1
          obtain ⟨hNode', hHolds'⟩ := hGone.behind_gone hNode hParent.1 hHolds.2 hNodup.2.2
          exact hDispose.bind (ih (arena.dispose live.root) (index + 1) _ lives
            (hDispose.preserves rule.step hI) hNode' (Pass.drop_succ_of_drop hDrop) hHolds'
            hNodup.2.1 hParent.2)

mutual

/-- **A rule holds all along a pass** over a live tree that follows the old virtual
tree. -/
theorem meet (rule : Rule P I) : (new : VirtualTree H) → (arena : Arena H) → (live : LiveTree H) →
    (old : VirtualTree H) → I arena → arena.Holds live.nodes → live.ids.Nodup →
    live.Follows old → (meet (some live.root) old new).Always P arena
  | .node tag fresh news, arena, .node id liveTag properties handlers lives, old, hI, hHolds,
      hNodup, hFollows => by
      by_cases hTag : old.tag = tag
      · rw [LiveTree.ids_node, List.nodup_cons] at hNodup
        rw [nodes, Arena.Holds, Slots.holds_cons] at hHolds
        obtain ⟨hNode, hLives⟩ := hHolds
        have hPatch := rule.patch arena id _ fresh hI hNode
        have hPatched := Pass.redrawn_patch arena hNode fresh
        have hNode' := hPatched.node?_first
        have hLives' : (Pass.patch arena id fresh).Holds (nodesAll lives) :=
          hPatched.holds_apart hLives (by simp) fun other hMem hEq => by
            have hOther : other = id := by simpa using hEq
            exact hNodup.1 (hOther ▸ hMem)
        have hI' := hPatch.preserves rule.step hI
        rw [run_patch] at hI'
        have hBelow := rule.meetAll news (Pass.patch arena id fresh) id _ 0 .none lives old.children
          hI' hNode' rfl hLives' hNodup.2 hNodup.1 hFollows.children
        have hEdits := rule.edits _ id _ lives old.children news hI' hNode' rfl hLives' hNodup.2
          hNodup.1 hFollows.children
        rw [LiveTree.root, Script.meet]
        simp only [ne_eq, hTag, not_true, if_false]
        refine hPatch.bind ?_
        rw [run_patch]
        exact hBelow.bind (hEdits.bind (always_pure _ _))
      · have hDispose : (request (.dispose id)).Always P arena :=
          always_request (rule.dispose arena (.node id liveTag properties handlers lives) hI hHolds
            hNodup)
        rw [LiveTree.root, Script.meet]
        simp only [ne_eq, hTag, not_false_eq_true, if_true]
        exact hDispose.bind (rule.create (.node tag fresh news) _ (hDispose.preserves rule.step hI))

theorem meetAll (rule : Rule P I) : (news : List (VirtualTree H)) → (arena : Arena H) →
    (parent : Handle) → (node : Node H) → (index : Nat) → (edits : Edits) →
    (lives : List (LiveTree H)) → (olds : List (VirtualTree H)) → I arena →
    arena.node? parent = some node → node.children.drop index = lives.map root →
    arena.Holds (nodesAll lives) → (idsAll lives).Nodup → parent ∉ idsAll lives →
    LiveTree.FollowsAll lives olds → (meetAll parent index edits olds news).Always P arena
  | [], arena, parent, node, index, edits, lives, olds, hI, hNode, hDrop, hHolds, hNodup, hParent,
      _ => by
      rw [Script.meetAll]
      exact rule.dropRest olds arena parent node index edits lives hI hNode hDrop hHolds hNodup
        hParent
  | new :: news, arena, parent, node, index, edits, lives, [], hI, _, _, _, _, _, _ => by
      rw [Script.meetAll]
      exact rule.createRest (new :: news) arena index edits hI
  | new :: news, arena, parent, node, index, edits, [], old :: olds, hI, hNode, hDrop,
      hHolds, hNodup, hParent, hFollows => by
      have hLive : arena.childAt? parent index = none :=
        Arena.childAt?_of_drop hNode hDrop
      have hDrop' : node.children.drop (index + 1) = [] := by
        rw [← List.drop_drop, hDrop, List.map_nil, List.drop_nil]
      have hFirst := rule.create new arena hI
      rw [Script.meetAll]
      refine rule.ask index hI hNode ?_
      rw [hLive, meet_none]
      exact hFirst.bind (rule.meetAll news _ parent node (index + 1) _ [] olds
        (hFirst.preserves rule.step hI) (node?_create hNode new) hDrop'
        (by simp [Arena.Holds, Slots.Holds, nodesAll]) hNodup hParent trivial)
  | new :: news, arena, parent, node, index, edits, live :: lives, old :: olds, hI, hNode, hDrop,
      hHolds, hNodup, hParent, hFollows => by
      have hLive : arena.childAt? parent index = some live.root :=
        Arena.childAt?_of_drop hNode hDrop
      rw [nodesAll, Arena.Holds, Slots.holds_append] at hHolds
      rw [LiveTree.idsAll_cons, List.nodup_append] at hNodup
      rw [LiveTree.idsAll_cons, List.mem_append, not_or] at hParent
      rw [LiveTree.FollowsAll] at hFollows
      have hFirst := rule.meet new arena live old hI hHolds.1 hNodup.1 hFollows.1
      obtain ⟨-, hTurned⟩ := Pass.turned_meet new (.start arena) live old hHolds.1 hNodup.1
        hFollows.1
      obtain ⟨hNode', hHolds', -⟩ := hTurned.behind_meet hNode hParent.1 hHolds.2 hNodup.2.2
      have hRun : (Script.meet (some live.root) old new).run arena = _ :=
        run_meet new (.start arena) (some live.root) old
      have hI' := hFirst.preserves rule.step hI
      rw [hRun] at hI'
      rw [Script.meetAll]
      refine rule.ask index hI hNode ?_
      rw [hLive]
      refine hFirst.bind ?_
      rw [hRun]
      exact rule.meetAll news _ parent node (index + 1) _ lives olds hI' hNode'
        (Pass.drop_succ_of_drop hDrop) hHolds' hNodup.2.1 hParent.2 hFollows.2

end

end Rule

end Script

end LiveMarkup.Live
