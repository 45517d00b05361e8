import LiveMarkup.Proofs.Live.Accounting
import LiveMarkup.Proofs.Live.Remount

/-!
# A rebuild that restates

A live node has the values that were set last, whatever it had before. So a tree
that only repeats the values of the one before has nothing to change: the pass keeps
every node and every list of children, and it sets values that are there already.

What the pass does is then known call by call. It visits the nodes in pre-order and
sets at each one the values that are no handlers by ascending name.

## Main results

* `overlay_of_within` — values that are there already change nothing.
* `restate_meet` — the turn of a live tree that bears the new values is that tree.
* `Tracks.bears` — a live node bears the values of the last tree.
* `restated_rebuild` — **a rebuild that restates changes nothing**.
-/

namespace LiveMarkup

variable {H : Type}

namespace Properties

/-! ## Values that are there already -/

/-- The values that are no handlers by ascending name. -/
def plain (p : Properties H) : List (String × Value H) :=
  p.sorted.filter (!·.2.isHandler)

theorem mem_plain {p : Properties H} {name : String} {value : Value H} :
    (name, value) ∈ p.plain ↔ p.plain? name = some value := by
  rw [plain, List.mem_filter, mem_sorted, plain?, Option.filter_eq_some_iff]

/-- Each name is listed once. -/
theorem plain_ascending (p : Properties H) : p.plain.Pairwise fun a b => a.1 < b.1 :=
  p.sorted_strict.filter _

/-- Setting the value that is there changes nothing. -/
theorem set_of_get? {p : Properties H} {name : String} {value : Value H}
    (h : p.get? name = some value) : p.set name value = p := by
  obtain ⟨entries, hDistinct⟩ := p
  have hEntries : setEntry name value entries = entries := by
    change lookUp name entries = some value at h
    clear hDistinct
    induction entries with
    | nil => cases h
    | cons entry rest ih =>
        obtain ⟨other, old⟩ := entry
        rw [lookUp] at h
        rw [setEntry]
        split at h
        · rename_i hName
          rw [if_pos hName, hName, Option.some.inj h]
        · rename_i hName
          rw [if_neg hName, ih h]
  simp only [set, hEntries]

/-- The values that are no handlers are all there in the properties `p`. -/
def Within (fresh p : Properties H) : Prop :=
  ∀ name value, fresh.plain? name = some value → p.get? name = some value

/-- **Values that are there already change nothing.** -/
theorem overlay_of_within {fresh p : Properties H} (h : fresh.Within p) : p.overlay fresh = p := by
  have hEntries : ∀ entry ∈ fresh.sorted, entry.2.isHandler = false →
      p.get? entry.1 = some entry.2 := by
    intro entry hMem hPlain
    refine h entry.1 entry.2 (mem_plain.mp (List.mem_filter.mpr ⟨hMem, ?_⟩))
    rw [hPlain]
    rfl
  rw [overlay]
  generalize fresh.sorted = entries at hEntries
  induction entries with
  | nil => rfl
  | cons entry rest ih =>
      rw [List.forall_mem_cons] at hEntries
      rw [List.foldl_cons]
      cases hHandler : entry.2.isHandler with
      | true => exact ih hEntries.2
      | false =>
          rw [if_neg Bool.false_ne_true, set_of_get? (hEntries.1 hHandler)]
          exact ih hEntries.2

end Properties

/-- The values at a position that are no handlers, by ascending name. -/
def VirtualTree.plainAt (path : List Nat) (tree : VirtualTree H) : List (String × Value H) :=
  ((tree.at? path).map fun here => here.properties.plain).getD []

namespace Live

open VirtualTree (behind positionsAll positions_eq)
open Arena (patchCalls)
open LiveTree (root meet)

/-! ## The turn of a live tree that bears the new values -/

namespace LiveTree

/-- A live tree has the values of a virtual one at all positions that both have. -/
def Bears (live : LiveTree H) (tree : VirtualTree H) : Prop :=
  ∀ path found here, live.at? path = some found → tree.at? path = some here →
    here.properties.Within found.properties

theorem Bears.child {live below : LiveTree H} {tree child : VirtualTree H} (h : live.Bears tree)
    {index : Nat} (hBelow : live.children[index]? = some below)
    (hChild : tree.children[index]? = some child) : below.Bears child := by
  intro path found here hFound hHere
  refine h (index :: path) found here ?_ ?_
  · rw [at?, hBelow, Option.bind_some, hFound]
  · rw [VirtualTree.at?, hChild, Option.bind_some, hHere]

/-- The calls that set the values at a position. -/
def restate (path : List Nat) (live : Option (LiveTree H)) (tree : Option (VirtualTree H)) :
    List (Call H) :=
  match live.bind (at? path), tree.bind (VirtualTree.at? path) with
  | some found, some here => patchCalls found.root here.properties
  | _, _ => []

/-- The calls that set the values at a position in a row. -/
def restateRow (lives : List (LiveTree H)) (trees : List (VirtualTree H)) :
    List Nat → List (Call H)
  | [] => []
  | index :: path => restate path lives[index]? trees[index]?

theorem restateRow_behind (live : LiveTree H) (lives : List (LiveTree H)) (tree : VirtualTree H)
    (trees : List (VirtualTree H)) (path : List Nat) :
    restateRow (live :: lives) (tree :: trees) (behind path) = restateRow lives trees path := by
  cases path <;> rfl

theorem keptLength_self (children : List Handle) : keptLength children children = children.length := by
  induction children with
  | nil => rfl
  | cons child rest ih => rw [keptLength, if_pos rfl, ih, List.length_cons]

/-- A list of children that stays as it is needs no edits. -/
theorem editCalls_self (parent : Handle) (children : List Handle) :
    editCalls parent children children = ([] : List (Call H)) := by
  rw [editCalls, keptLength_self, Nat.sub_self, List.drop_length]
  rfl

mutual

/-- **The turn of a live tree that bears the new values is that tree**, and the calls
set these values in pre-order. -/
theorem restate_meet : (new : VirtualTree H) → (next : Nat) → (live : LiveTree H) →
    (old : VirtualTree H) → live.shape = old.shape → old.shape = new.shape → live.Bears new →
    (meet next live old new).tree = live ∧ (meet next live old new).made =
      new.positions.flatMap fun path => restate path (some live) (some new)
  | .node tag fresh news, next, .node id liveTag properties handlers lives, .node oldTag before olds,
      hLive, hShape, hBears => by
      rw [shape, VirtualTree.shape, Shape.node.injEq] at hLive
      rw [VirtualTree.shape, VirtualTree.shape, Shape.node.injEq] at hShape
      have hTag : (VirtualTree.node oldTag before olds).tag = tag := hShape.1
      obtain ⟨hTrees, hMade⟩ := restate_meetAll news next lives olds hLive.2 hShape.2
        fun index below child hBelow hChild => hBears.child hBelow hChild
      have hValues : properties.overlay fresh = properties :=
        Properties.overlay_of_within (hBears [] _ _ rfl rfl)
      constructor
      · rw [tree_meet_of_eq hTag]
        simp only [root, LiveTree.tag, LiveTree.properties, LiveTree.handlers, children,
          VirtualTree.children, hTrees, hValues]
      · rw [meet, if_neg (not_not_intro hTag)]
        simp only [VirtualTree.children, hTrees, hMade, editCalls_self, List.append_nil]
        rw [positions_eq, List.flatMap_cons]
        refine congrArg (patchCalls id fresh ++ ·) (List.flatMap_congr fun path hMem => ?_)
        cases path with
        | nil => simp [VirtualTree.mem_positionsAll, VirtualTree.rowAt?] at hMem
        | cons index path => rfl

theorem restate_meetAll : (news : List (VirtualTree H)) → (next : Nat) →
    (lives : List (LiveTree H)) → (olds : List (VirtualTree H)) →
    shapeAll lives = VirtualTree.shapeAll olds →
    VirtualTree.shapeAll olds = VirtualTree.shapeAll news →
    (∀ (index : Nat) live new, lives[index]? = some live → news[index]? = some new →
      live.Bears new) →
    (meetAll next lives olds news).trees = lives ∧ (meetAll next lives olds news).made =
      (positionsAll news).flatMap (restateRow lives news)
  | [], next, lives, [], hLive, _, _ => by
      obtain rfl : lives = [] := List.length_eq_zero_iff.mp (length_eq_of_shapeAll hLive)
      exact ⟨rfl, rfl⟩
  | [], _, _, _ :: _, _, hShape, _ => by cases hShape
  | new :: news, next, _, [], _, hShape, _ => by cases hShape
  | new :: news, next, [], old :: olds, hLive, _, _ => by cases hLive
  | new :: news, next, live :: lives, old :: olds, hLive, hShape, hBears => by
      rw [shapeAll, VirtualTree.shapeAll, List.cons.injEq] at hLive
      rw [VirtualTree.shapeAll, VirtualTree.shapeAll, List.cons.injEq] at hShape
      obtain ⟨hTree, hFirst⟩ := restate_meet new next live old hLive.1 hShape.1
        (hBears 0 live new rfl rfl)
      obtain ⟨hTrees, hRest⟩ := restate_meetAll news (next + (meet next live old new).stats.created)
        lives olds hLive.2 hShape.2 fun index => hBears (index + 1)
      rw [meetAll, hTree, hTrees, hFirst, hRest]
      refine ⟨rfl, ?_⟩
      rw [positionsAll, List.flatMap_append, List.flatMap_map, List.flatMap_map]
      simp only [restateRow_behind]
      rfl

end

end LiveTree

/-! ## Rebuilds -/

namespace Host

variable {arena : Arena H} {front : List (VirtualTree H)} {last : VirtualTree H}

/-- **A live node bears the values of the last tree**, whatever the trees before it
were. -/
theorem Tracks.bears {path : List Nat} {found : LiveTree H} {here : VirtualTree H}
    (h : Tracks arena (front ++ [last]) path found) (hHere : last.at? path = some here) :
    here.properties.Within found.properties := by
  intro name value hPlain
  obtain ⟨init, hInit⟩ := exists_stretch_concat path front last
  have hWritten : written path name last = some value := (written_eq hHere name).trans hPlain
  rw [h.properties name, hInit, latest_append, hWritten, Option.some_or]

/-- A live tree that bore the last tree bears the next one, if its values are the same. -/
theorem bears_of_plain {live : LiveTree H} {next : VirtualTree H} (hLive : live.shape = last.shape)
    (hTracked : ∀ path here, last.at? path = some here →
      ∃ found, live.at? path = some found ∧ Tracks arena (front ++ [last]) path found)
    (hPlain : ∀ path here now, last.at? path = some here → next.at? path = some now →
      ∀ name, here.properties.plain? name = now.properties.plain? name) : live.Bears next := by
  intro path found now hFound hNow name value hValue
  obtain ⟨here, hHere⟩ := LiveTree.exists_at?_of_shape path live last hLive hFound
  obtain ⟨found', hFound', hTracks⟩ := hTracked path here hHere
  obtain rfl := Option.some.inj (hFound.symm.trans hFound')
  exact hTracks.bears hHere name value ((hPlain path here now hHere hNow name).trans hValue)

/-- In a live tree of the same shape, the calls that set the values of a tree are those
at the nodes that stand at its positions. -/
theorem exists_place {host : Host H} {live : LiveTree H} {next : VirtualTree H}
    (hShape : live.shape = next.shape)
    (hAt : ∀ path found, live.at? path = some found → host.at? path = some found.root) :
    ∃ place : List Nat → Handle, (∀ path ∈ next.positions, host.at? path = some (place path)) ∧
      (next.positions.flatMap fun path => LiveTree.restate path (some live) (some next)) =
        next.positions.flatMap fun path =>
          (next.plainAt path).map fun entry => .setProperty (place path) entry.1 entry.2 := by
  have hPlace {path : List Nat} {found : LiveTree H} (hFound : live.at? path = some found) :
      ((live.at? path).map root).getD .null = found.root := by
    rw [hFound]
    rfl
  have hBoth : ∀ path ∈ next.positions, ∃ found now, live.at? path = some found ∧
      next.at? path = some now := by
    intro path hMem
    obtain ⟨now, hNow⟩ := Option.isSome_iff_exists.mp ((VirtualTree.mem_positions next path).mp hMem)
    obtain ⟨found, hFound, -⟩ := LiveTree.exists_found_of_shape path hShape hNow
    exact ⟨found, now, hFound, hNow⟩
  refine ⟨fun path => ((live.at? path).map root).getD .null, fun path hMem => ?_,
    List.flatMap_congr fun path hMem => ?_⟩
  · obtain ⟨found, now, hFound, -⟩ := hBoth path hMem
    exact (hAt path found hFound).trans (congrArg some (hPlace hFound).symm)
  · obtain ⟨found, now, hFound, hNow⟩ := hBoth path hMem
    simp only [LiveTree.restate, VirtualTree.plainAt, Option.bind_some, hNow, hFound]
    rfl

/-- What a rebuild from `tree` leaves of a view that shows a tree of that shape with
those values. -/
structure Restated (before after : Host H) (tree : VirtualTree H) : Prop where
  /-- The live root is the same. -/
  root : after.binding.retained.root = before.binding.retained.root
  /-- The structure is left alone, and every node is kept. -/
  still : after.binding.lastStats.isStructuralNoop = true
  reused : after.binding.lastStats.reused = tree.count
  /-- Every node is as it was. -/
  nodes : ∀ id, after.arena.node? id = before.arena.node? id
  /-- The values at a position that are no handlers are listed by ascending name, each
  of them once. -/
  listed : ∀ path here, tree.at? path = some here →
    (tree.plainAt path).Pairwise (fun a b => a.1 < b.1) ∧
      ∀ name value, (name, value) ∈ tree.plainAt path ↔ here.properties.plain? name = some value
  /-- The calls set these values, at the nodes in pre-order. -/
  calls : ∃ place : List Nat → Handle, (∀ path ∈ tree.positions, before.at? path = some (place path)) ∧
    after.arena.calls = before.arena.calls ++ tree.positions.flatMap fun path =>
      (tree.plainAt path).map fun entry => .setProperty (place path) entry.1 entry.2

/-- **A rebuild that restates changes nothing.** Whatever trees a view was rebuilt
from before, if the next one has the shape of the last one and the same values at
every position, handlers apart, then the rebuild is to no effect, and all its calls
set values that are there. -/
theorem restated_rebuild (arena : Arena H) (front : List (VirtualTree H))
    (last next : VirtualTree H) (hShape : last.shape = next.shape)
    (hPlain : ∀ path here now, last.at? path = some here → next.at? path = some now →
      ∀ name, here.properties.plain? name = now.properties.plain? name) :
    Restated (after arena (front ++ [last])) ((after arena (front ++ [last])).rebuild next) next := by
  obtain ⟨live, hMounted, hTracked⟩ := exists_tracked arena front last
  generalize after arena (front ++ [last]) = host at hMounted ⊢
  have hBears : live.Bears next := bears_of_plain hMounted.shape hTracked hPlain
  obtain ⟨hTree, hMade⟩ := LiveTree.restate_meet next host.arena.slots.length live last
    hMounted.shape hShape hBears
  have hStats := LiveTree.stats_meet_of_shape next host.arena.slots.length live last hMounted.shape
    hShape (Pass.old_of_holds hMounted.holds)
  have hShows : host.binding.retained.Shows host.arena (some (live, last)) := hMounted
  have hAfter := Retained.shows_rebuild hShows next
  have hRedrawn := Retained.redrawn_rebuild hShows next
  have hCounters := (Retained.stats_rebuild hShows next).trans hStats
  rw [View.turn, hTree, hMade] at hRedrawn
  rw [View.after, View.turn, hTree] at hAfter
  refine ⟨hAfter.root.trans hMounted.root.symm, ?_, ?_, fun id => ?_, fun path here hHere => ?_, ?_⟩
  · rw [rebuild, Binding.rebuild, hCounters]
    rfl
  · rw [rebuild, Binding.rebuild, hCounters]
  · by_cases hMem : id ∈ live.ids
    · obtain ⟨entry, hEntry, rfl⟩ := List.mem_map.mp hMem
      exact (hRedrawn.shows entry hEntry).trans (hMounted.holds entry hEntry).symm
    · exact hRedrawn.keeps id hMem hMem
  · rw [VirtualTree.plainAt, hHere]
    exact ⟨here.properties.plain_ascending, fun name value => Properties.mem_plain⟩
  · obtain ⟨place, hPlace, hCalls⟩ := exists_place (hMounted.shape.trans hShape)
      fun path found hFound => at?_of_mounted hMounted hFound
    exact ⟨place, hPlace, hRedrawn.calls.trans (congrArg (host.arena.calls ++ ·) hCalls)⟩

/-- A row that was relabelled before gets another handler, and the label that it has. -/
theorem restated_rebuild_label :
    let first : VirtualTree Nat := .node "list" .empty
      [.node "row" (.ofList [("click", .handler 1), ("label", .text "one")]) []]
    let last : VirtualTree Nat := .node "list" .empty
      [.node "row" (.ofList [("click", .handler 1), ("label", .text "two")]) []]
    let next : VirtualTree Nat := .node "list" .empty
      [.node "row" (.ofList [("label", .text "two"), ("click", .handler 2)]) []]
    last.shape = next.shape ∧
      Restated (after .empty [first, last]) ((after .empty [first, last]).rebuild next) next ∧
      next.positions.flatMap next.plainAt = [("label", .text "two")] := by
  intro first last next
  have hPlain : ∀ path here now, last.at? path = some here → next.at? path = some now →
      ∀ name, here.properties.plain? name = now.properties.plain? name := by
    rintro (_ | ⟨_ | index, _ | ⟨below, path⟩⟩) here now hHere hNow name
    · cases hHere
      cases hNow
      rfl
    · cases hHere
      cases hNow
      have hLast : (Properties.ofList [("click", .handler 1), ("label", .text "two")] :
          Properties Nat).get? name = if "click" = name then some (.handler 1) else
            if "label" = name then some (.text "two") else none := rfl
      have hNext : (Properties.ofList [("label", .text "two"), ("click", .handler 2)] :
          Properties Nat).get? name = if "label" = name then some (.text "two") else
            if "click" = name then some (.handler 2) else none := rfl
      simp only [Properties.plain?, VirtualTree.properties, hLast, hNext]
      by_cases hLabel : "label" = name
      · subst hLabel
        rfl
      · rw [if_neg hLabel, if_neg hLabel]
        split_ifs <;> rfl
    · cases hHere
    · cases hHere
    · cases hHere
  exact ⟨rfl, restated_rebuild .empty [first] last next rfl hPlain, rfl⟩

end Host

end Live

end LiveMarkup
