import LiveMarkup.Proofs.Live.Position
import Mathlib.Data.List.DropRight

/-!
# The history of a live node

A view that is bound to an arena is rebuilt from one virtual tree after the
other. What stands at a position in the end depends on all the trees since the
live node there was constructed, and on none before.

`stretch path trees` are these trees: the last ones that have the position, all
with the same tags on the way to it. `Host.Remembers` says what the live node
has kept of them.

## Main results

* `latest_append` — a later tree says what is latest, or leaves it as it was.
* `tracks_kept`, `tracks_fresh` — a pass keeps the record of a position or
  starts a new one.
* `exists_remembers` — **the history of a live node**: it was constructed by the
  first tree of its stretch, it has the handlers of this tree and the latest of
  the other values.
-/

namespace LiveMarkup.Live

variable {H : Type}

/-! ## Stretches -/

/-- The latest trees that have a position with the same tags on the way to it as
the last of them. -/
def stretch (path : List Nat) (trees : List (VirtualTree H)) : List (VirtualTree H) :=
  trees.rtakeWhile fun tree => tree.tagsTo path = trees.getLast?.bind (VirtualTree.tagsTo path)

theorem stretch_concat_of_eq {path : List Nat} {front : List (VirtualTree H)}
    {old new : VirtualTree H} (hTags : old.tagsTo path = new.tagsTo path) :
    stretch path (front ++ [old] ++ [new]) = stretch path (front ++ [old]) ++ [new] := by
  simp only [stretch, List.getLast?_concat, Option.bind_some, hTags]
  simp only [List.rtakeWhile_concat, hTags, decide_true, if_true]

theorem stretch_concat_of_ne {path : List Nat} {front : List (VirtualTree H)}
    {old new : VirtualTree H} (hTags : old.tagsTo path ≠ new.tagsTo path) :
    stretch path (front ++ [old] ++ [new]) = [new] := by
  simp only [stretch, List.getLast?_concat, Option.bind_some]
  simp only [List.rtakeWhile_concat, hTags, decide_true, decide_false, if_true,
    Bool.false_eq_true, if_false, List.nil_append]

theorem stretch_singleton (path : List Nat) (tree : VirtualTree H) :
    stretch path [tree] = [tree] := by
  simp [stretch, List.rtakeWhile]

theorem length_stretch_le (path : List Nat) (trees : List (VirtualTree H)) :
    (stretch path trees).length ≤ trees.length := by
  rw [stretch, List.rtakeWhile, List.length_reverse]
  exact (List.takeWhile_prefix _).length_le.trans_eq List.length_reverse

theorem length_stretch_pos (path : List Nat) (front : List (VirtualTree H))
    (last : VirtualTree H) : 0 < (stretch path (front ++ [last])).length := by
  simp [stretch]

/-! ## Latest values -/

/-- What a tree sets under a name at a position. -/
def written (path : List Nat) (key : String) (tree : VirtualTree H) : Option (Value H) :=
  ((tree.at? path).bind fun here => here.properties.get? key).filter (!·.isHandler)

/-- What the latest of the trees that sets anything sets under a name at a position. -/
def latest (path : List Nat) (key : String) (trees : List (VirtualTree H)) : Option (Value H) :=
  trees.reverse.findSome? (written path key)

/-- **A later tree says what is latest, or leaves it as it was.** -/
theorem latest_append (path : List Nat) (key : String) (trees : List (VirtualTree H))
    (tree : VirtualTree H) :
    latest path key (trees ++ [tree]) = (written path key tree).or (latest path key trees) := by
  rw [latest, List.reverse_append, List.reverse_singleton, List.singleton_append,
    List.findSome?_cons]
  cases written path key tree <;> rfl

theorem written_eq {path : List Nat} {tree here : VirtualTree H} (hHere : tree.at? path = some here)
    (key : String) : written path key tree = (here.properties.get? key).filter (!·.isHandler) := by
  rw [written, hHere, Option.bind_some]

/-! ## Passes in turn -/

/-- A view and the arena that it is bound to. -/
structure Host (H : Type) where
  binding : Binding H
  arena : Arena H

namespace Host

/-- The view is rebuilt. -/
def rebuild (host : Host H) (tree : VirtualTree H) : Host H :=
  ⟨(host.binding.rebuild host.arena tree).1, (host.binding.rebuild host.arena tree).2.arena⟩

/-- A view that was bound to an arena and has been rebuilt from the trees in turn. -/
def after (arena : Arena H) (trees : List (VirtualTree H)) : Host H :=
  trees.foldl rebuild ⟨.unmounted, arena⟩

theorem after_concat (arena : Arena H) (trees : List (VirtualTree H)) (tree : VirtualTree H) :
    after arena (trees ++ [tree]) = (after arena trees).rebuild tree := by
  rw [after, List.foldl_append]
  rfl

/-- The live node at a position. -/
def at? (host : Host H) (path : List Nat) : Option Handle :=
  host.binding.retained.root.bind (host.arena.at? path)

/-- How many of the passes came before the stretch of a position. -/
def passesBefore (path : List Nat) (trees : List (VirtualTree H)) : Nat :=
  trees.length - (stretch path trees).length

/-- What a live node at a position has kept of the passes. -/
structure Remembers (arena : Arena H) (trees : List (VirtualTree H)) (path : List Nat)
    (number : Nat) (node : Node H) (first : VirtualTree H) : Prop where
  /-- The first tree of the stretch has the position. -/
  first_at : (stretch path trees).head?.bind (VirtualTree.at? path) = some first
  /-- The node had not been constructed when the stretch began. -/
  after_others : (after arena (trees.take (passesBefore path trees))).arena.slots.length ≤ number
  /-- It had been when the first pass of the stretch was over. -/
  in_first : number < (after arena (trees.take (passesBefore path trees + 1))).arena.slots.length
  /-- It has stood at the position after every pass of the stretch. -/
  stands : ∀ passes, passesBefore path trees < passes → passes ≤ trees.length →
    (after arena (trees.take passes)).at? path = some (.node number)
  /-- It is there. -/
  there : (after arena trees).arena.node? (.node number) = some node
  /-- It has the latest values, and no others. -/
  properties : ∀ key, node.properties.get? key = latest path key (stretch path trees)
  /-- Its handlers are those of the first tree. -/
  handlers : ∀ event handler, (event, handler) ∈ node.handlers ↔
    first.properties.get? event = some (.handler handler)
  /-- They come by ascending name, none of them twice. -/
  ascending : node.handlers.Pairwise fun a b => a.1 < b.1
  /-- An event runs the handler of the first tree once, if that had one. -/
  fired : ∀ event, (after arena trees).arena.fired (.node number) event =
    ((first.properties.get? event).bind Value.asHandler?).toList

/-! ## The record of a position -/

/-- What a live subtree at a position has kept of the passes. -/
structure Tracks (arena : Arena H) (trees : List (VirtualTree H)) (path : List Nat)
    (found : LiveTree H) : Prop where
  constructed : ∃ number, found.root = .node number ∧
    (after arena (trees.take (passesBefore path trees))).arena.slots.length ≤ number ∧
    number < (after arena (trees.take (passesBefore path trees + 1))).arena.slots.length
  stands : ∀ passes, passesBefore path trees < passes → passes ≤ trees.length →
    (after arena (trees.take passes)).at? path = some found.root
  properties : ∀ key, found.properties.get? key = latest path key (stretch path trees)
  handlers : ∃ first, (stretch path trees).head?.bind (VirtualTree.at? path) = some first ∧
    found.handlers = first.properties.handlers

theorem at?_of_mounted {host : Host H} {live found : LiveTree H} {tree : VirtualTree H}
    {path : List Nat} (hMounted : host.binding.retained.Mounted host.arena live tree)
    (hFound : live.at? path = some found) : host.at? path = some found.root := by
  rw [at?, hMounted.root, Option.bind_some]
  exact (Arena.at?_of_holds path hMounted.holds hFound).1

/-- **A pass starts a new record**: a position that is mounted in the last pass
has that pass as its stretch. -/
theorem tracks_fresh {arena : Arena H} {trees : List (VirtualTree H)} {path : List Nat}
    {new here : VirtualTree H} {start : Nat} (hStretch : stretch path (trees ++ [new]) = [new])
    (hHere : new.at? path = some here)
    (hStart : (after arena trees).arena.slots.length ≤ start)
    (hFits : start + here.count ≤ (after arena (trees ++ [new])).arena.slots.length)
    (hStands : (after arena (trees ++ [new])).at? path = some (.node start)) :
    Tracks arena (trees ++ [new]) path (.mount start here) := by
  have hBefore : passesBefore path (trees ++ [new]) = trees.length := by
    rw [passesBefore, hStretch, List.length_append, List.length_singleton]
    omega
  have hLength : (trees ++ [new]).length = trees.length + 1 := by simp
  have hTake : (trees ++ [new]).take trees.length = trees := List.take_left
  have hTakeAll : (trees ++ [new]).take (trees.length + 1) = trees ++ [new] :=
    List.take_of_length_le (by omega)
  have hPos := here.count_pos
  exact
    { constructed := by
        refine ⟨start, LiveTree.root_mount here start, ?_, ?_⟩
        · rw [hBefore, hTake]
          exact hStart
        · rw [hBefore, hTakeAll]
          omega
      stands := by
        intro passes hLt hLe
        rw [hBefore] at hLt
        obtain rfl : passes = trees.length + 1 := by omega
        rw [hTakeAll, hStands, LiveTree.root_mount]
      properties := by
        intro key
        have hLatest := latest_append path key [] new
        rw [List.nil_append] at hLatest
        rw [hStretch, hLatest, written_eq hHere]
        cases here
        exact Properties.get?_overlay _ _ key
      handlers := by
        refine ⟨here, ?_, ?_⟩
        · rw [hStretch]
          exact hHere
        · cases here
          rfl }

/-- **A pass keeps the record** of a position whose tags are the old ones. -/
theorem tracks_kept {arena : Arena H} {front : List (VirtualTree H)} {old new here : VirtualTree H}
    {path : List Nat} {before found : LiveTree H} (hTags : old.tagsTo path = new.tagsTo path)
    (hHere : new.at? path = some here) (hTracks : Tracks arena (front ++ [old]) path before)
    (hRoot : found.root = before.root)
    (hProperties : found.properties = before.properties.overlay here.properties)
    (hHandlers : found.handlers = before.handlers)
    (hStands : (after arena (front ++ [old] ++ [new])).at? path = some found.root) :
    Tracks arena (front ++ [old] ++ [new]) path found := by
  have hStretch : stretch path (front ++ [old] ++ [new]) = stretch path (front ++ [old]) ++ [new] :=
    stretch_concat_of_eq hTags
  have hPos := length_stretch_pos path front old
  have hLe := length_stretch_le path (front ++ [old])
  have hLength : (front ++ [old] ++ [new]).length = (front ++ [old]).length + 1 := by simp
  have hBefore : passesBefore path (front ++ [old] ++ [new]) =
      passesBefore path (front ++ [old]) := by
    have hLonger : (stretch path (front ++ [old]) ++ [new]).length =
        (stretch path (front ++ [old])).length + 1 := by simp
    rw [passesBefore, passesBefore, hStretch, hLength, hLonger]
    omega
  -- The passes of the stretch so far are the same whether the new tree follows or not.
  have hTake : ∀ passes, passes ≤ (front ++ [old]).length →
      (front ++ [old] ++ [new]).take passes = (front ++ [old]).take passes :=
    fun passes h => List.take_append_of_le_length h
  have hInside : passesBefore path (front ++ [old]) + 1 ≤ (front ++ [old]).length := by
    rw [passesBefore]
    omega
  exact
    { constructed := by
        rw [hBefore, hTake _ (by omega), hTake _ hInside, hRoot]
        exact hTracks.constructed
      stands := by
        intro passes hLt hLePasses
        rw [hBefore] at hLt
        by_cases hLast : passes ≤ (front ++ [old]).length
        · rw [hTake _ hLast, hRoot]
          exact hTracks.stands passes hLt hLast
        · have hAll : (front ++ [old] ++ [new]).length ≤ passes := by omega
          rw [List.take_of_length_le hAll]
          exact hStands
      properties := by
        intro key
        rw [hStretch, latest_append, written_eq hHere, hProperties, Properties.get?_overlay,
          hTracks.properties key]
      handlers := by
        obtain ⟨first, hFirst, hEq⟩ := hTracks.handlers
        refine ⟨first, ?_, hHandlers.trans hEq⟩
        rw [hStretch, List.head?_append_of_ne_nil _ (List.length_pos_iff.mp hPos)]
        exact hFirst }

/-- The view retained after some passes, with the records of all its positions. -/
theorem exists_tracked (arena : Arena H) (front : List (VirtualTree H)) (last : VirtualTree H) :
    ∃ live, (after arena (front ++ [last])).binding.retained.Mounted
        (after arena (front ++ [last])).arena live last ∧
      ∀ path here, last.at? path = some here → ∃ found, live.at? path = some found ∧
        Tracks arena (front ++ [last]) path found := by
  induction front using List.reverseRecOn generalizing last with
  | nil =>
      have hNothing : (Retained.nothing : Retained H).Shows arena none := rfl
      have hMounted := Retained.shows_rebuild hNothing last
      have hLength := (Retained.redrawn_rebuild hNothing last).length
      refine ⟨.mount arena.slots.length last, hMounted, ?_⟩
      intro path here hHere
      obtain ⟨start, hStart, hFits, hFound⟩ := LiveTree.at?_mount path last arena.slots.length hHere
      refine ⟨.mount start here, hFound, ?_⟩
      have hStands : (after arena [last]).at? path = some (LiveTree.mount start here).root :=
        at?_of_mounted hMounted hFound
      rw [LiveTree.root_mount] at hStands
      have hFitsAfter : start + here.count ≤ (after arena ([] ++ [last])).arena.slots.length :=
        hFits.trans_eq hLength.symm
      exact tracks_fresh (stretch_singleton path last) hHere hStart hFitsAfter hStands
  | append_singleton front old ih =>
      obtain ⟨live, hMounted, hTracked⟩ := ih old
      have hShows : (after arena (front ++ [old])).binding.retained.Shows
          (after arena (front ++ [old])).arena (some (live, old)) := hMounted
      have hMountedNew := Retained.shows_rebuild hShows last
      have hLength := (Retained.redrawn_rebuild hShows last).length
      have hAfter := after_concat arena (front ++ [old]) last
      refine ⟨_, by rw [hAfter]; exact hMountedNew, ?_⟩
      intro path here hHere
      by_cases hTags : old.tagsTo path = last.tagsTo path
      · have hSome : (old.at? path).isSome = true := by
          rw [← VirtualTree.isSome_tagsTo, hTags, VirtualTree.isSome_tagsTo, hHere]
          rfl
        obtain ⟨hereOld, hHereOld⟩ := Option.isSome_iff_exists.mp hSome
        obtain ⟨before, hBefore, hTracks⟩ := hTracked path hereOld hHereOld
        obtain ⟨found, hFound, hRoot, hProperties, hHandlers⟩ :=
          LiveTree.at?_meet_of_eq path last _ live old hHere hBefore hTags
        refine ⟨found, hFound, ?_⟩
        refine tracks_kept hTags hHere hTracks hRoot hProperties hHandlers ?_
        rw [hAfter]
        exact at?_of_mounted hMountedNew hFound
      · obtain ⟨start, hStart, hFits, hFound⟩ :=
          LiveTree.at?_meet_of_ne path last _ live old hHere (.inr hTags)
        refine ⟨.mount start here, hFound, ?_⟩
        refine tracks_fresh (stretch_concat_of_ne hTags) hHere hStart ?_ ?_
        · rw [hAfter]
          exact hFits.trans_eq hLength.symm
        · rw [hAfter, ← LiveTree.root_mount here start]
          exact at?_of_mounted hMountedNew hFound

/-- **The history of a live node.** Whatever trees a view is rebuilt from in
turn, at every position of the last one stands the node that was constructed by
the first tree of the stretch. It has the latest values that were set there
since, and the handlers of that first tree. -/
theorem exists_remembers (arena : Arena H) (front : List (VirtualTree H))
    (last here : VirtualTree H) (path : List Nat) (hHere : last.at? path = some here) :
    ∃ number node first, Remembers arena (front ++ [last]) path number node first := by
  obtain ⟨live, hMounted, hTracked⟩ := exists_tracked arena front last
  obtain ⟨found, hFound, hTracks⟩ := hTracked path here hHere
  obtain ⟨number, hRoot, hAfter, hIn⟩ := hTracks.constructed
  obtain ⟨first, hFirst, hHandlers⟩ := hTracks.handlers
  have hNode : (after arena (front ++ [last])).arena.node? (.node number) = some found.held := by
    rw [← hRoot]
    exact (Arena.at?_of_holds path hMounted.holds hFound).2
  have hHeld : found.held.handlers = first.properties.handlers := hHandlers
  exact ⟨number, found.held, first,
    { first_at := hFirst
      after_others := hAfter
      in_first := hIn
      stands := fun passes hLt hLe => by rw [← hRoot]; exact hTracks.stands passes hLt hLe
      there := hNode
      properties := hTracks.properties
      handlers := fun event handler => by
        rw [hHeld]
        exact Properties.mem_handlers
      ascending := by
        rw [hHeld]
        exact first.properties.handlers_ascending
      fired := fun event => by
        rw [Arena.fired, hNode]
        simp only [hHeld]
        exact first.properties.filter_handlers event }⟩

/-- A row that is relabelled after its page was replaced: the page starts the
stretch of the row, and the row remembers both of its labels' trees. -/
theorem exists_remembers_relabelled :
    let page : VirtualTree Nat := .node "page" .empty [.node "row" .empty []]
    let list : VirtualTree Nat := .node "list" .empty
      [.node "row" (.ofList [("click", .handler 1), ("label", .text "one")]) []]
    let relabelled : VirtualTree Nat := .node "list" .empty
      [.node "row" (.ofList [("click", .handler 2), ("label", .text "two")]) []]
    stretch [0] [page, list, relabelled] = [list, relabelled] ∧
      (relabelled.at? [0]).isSome = true ∧
      ∃ number node first, Remembers .empty [page, list, relabelled] [0] number node first := by
  intro page list relabelled
  have hStretch : stretch [0] [page, list, relabelled] = [list, relabelled] := rfl
  have hHere : relabelled.at? [0] = some
      (.node "row" (.ofList [("click", .handler 2), ("label", .text "two")]) []) := rfl
  exact ⟨hStretch, rfl, exists_remembers .empty [page, list] relabelled _ [0] hHere⟩

end Host

end LiveMarkup.Live
