import LiveMarkup.Live.Binding
import LiveMarkup.Proofs.Live.Pass

/-!
# A rebuild does what its turn says

A `View` is what a mounted view shows: its live tree, and the virtual tree that
this was built from. `Retained.Shows` says that the view stands in an arena and
is what has been retained.

## Main results

* `shows_rebuild` — a rebuild leads from a view to the view after its turn.
* `redrawn_rebuild` — it touches the nodes of the view and fresh ones only.
* `mem_ids_turn` — the new view holds old handles and fresh ones.
-/

namespace LiveMarkup.Live

open LiveTree (mount mountCalls)

variable {H : Type}

/-- What a view shows, if it has been mounted. -/
abbrev View (H : Type) := Option (LiveTree H × VirtualTree H)

namespace View

/-- The handles of the nodes that a view shows. -/
def ids : View H → List Handle
  | none => []
  | some shown => shown.1.ids

/-- What a rebuild makes of a view, when `next` handles have been given out
before. -/
def turn (next : Nat) (new : VirtualTree H) : View H → Turn H
  | none => ⟨mount next new, mountCalls next new, ⟨new.count, 0, 0, 0, 0⟩⟩
  | some (live, old) => LiveTree.meet next live old new

/-- The view after a rebuild. -/
def after (next : Nat) (new : VirtualTree H) (view : View H) : View H :=
  some ((view.turn next new).tree, new)

/-- A view holds old handles and fresh ones after a rebuild. -/
theorem mem_ids_turn {next : Nat} {new : VirtualTree H} {view : View H} {id : Handle}
    (hMem : id ∈ (view.turn next new).tree.ids) :
    id ∈ view.ids ∨ id.IsFresh next (view.turn next new).stats.created := by
  cases view with
  | none => exact .inr (LiveTree.mem_ids_mount.mp hMem)
  | some shown => exact LiveTree.mem_ids_meet new next shown.1 shown.2 id hMem

end View

/-- A live tree and the virtual tree that it shows, as they are retained and as
they stand in an arena. -/
structure Retained.Mounted (retained : Retained H) (arena : Arena H) (live : LiveTree H)
    (tree : VirtualTree H) : Prop where
  root : retained.root = some live.root
  previous : retained.previous = some tree
  holds : arena.Holds live.nodes
  nodup : live.ids.Nodup
  shape : live.shape = tree.shape

/-- The view that is retained stands in the arena. -/
def Retained.Shows (retained : Retained H) (arena : Arena H) : View H → Prop
  | none => retained = .nothing
  | some (live, tree) => retained.Mounted arena live tree

namespace Retained

/-- A view that is left alone stands as before. -/
theorem Shows.congr {retained : Retained H} {before after : Arena H} {view : View H}
    (hShows : retained.Shows before view)
    (hSame : ∀ id ∈ view.ids, after.node? id = before.node? id) : retained.Shows after view := by
  cases view with
  | none => exact hShows
  | some shown => exact { hShows with holds := hShows.holds.congr hSame }

/-- What a view shows is there. -/
theorem Shows.isSome_node? {retained : Retained H} {arena : Arena H} {view : View H}
    (hShows : retained.Shows arena view) {id : Handle} (hMem : id ∈ view.ids) :
    (arena.node? id).isSome = true := by
  cases view with
  | none => cases hMem
  | some shown =>
      obtain ⟨entry, hEntry, rfl⟩ := List.mem_map.mp hMem
      have hNode : arena.node? entry.1 = some entry.2 := hShows.holds entry hEntry
      rw [hNode]
      rfl

theorem rebuild_nothing (arena : Arena H) (new : VirtualTree H) :
    (nothing : Retained H).rebuild arena new =
      ⟨⟨some new, some (Pass.create (.start arena) new).1⟩, (Pass.create (.start arena) new).2.arena,
        (Pass.create (.start arena) new).2.stats, (Pass.create (.start arena) new).2.remarks⟩ := rfl

theorem rebuild_mounted {retained : Retained H} {arena : Arena H} {live : LiveTree H}
    {old : VirtualTree H} (h : retained.Mounted arena live old) (new : VirtualTree H) :
    retained.rebuild arena new =
      ⟨⟨some new, some (Pass.meet (.start arena) (some live.root) old new).1⟩,
        (Pass.meet (.start arena) (some live.root) old new).2.arena,
        (Pass.meet (.start arena) (some live.root) old new).2.stats,
        (Pass.meet (.start arena) (some live.root) old new).2.remarks⟩ := by
  rw [rebuild, h.root, h.previous]
  rfl

/-- **A rebuild touches the nodes of its view and fresh ones only.** -/
theorem redrawn_rebuild {retained : Retained H} {arena : Arena H} {view : View H}
    (hShows : retained.Shows arena view) (new : VirtualTree H) :
    arena.Redrawn (retained.rebuild arena new).arena view.ids
      (view.turn arena.slots.length new).tree.nodes
      (view.turn arena.slots.length new).stats.created
      (view.turn arena.slots.length new).made := by
  cases view with
  | none =>
      obtain rfl := hShows
      rw [rebuild_nothing]
      exact (Pass.turned_create new (.start arena)).2.arena
  | some shown =>
      obtain ⟨live, old⟩ := shown
      rw [rebuild_mounted hShows]
      have hFollows := LiveTree.follows_of_shape live old hShows.shape
      exact (Pass.turned_meet new (.start arena) live old hShows.holds hShows.nodup hFollows).2.arena

/-- The counters of a rebuild are those of its turn. -/
theorem stats_rebuild {retained : Retained H} {arena : Arena H} {view : View H}
    (hShows : retained.Shows arena view) (new : VirtualTree H) :
    (retained.rebuild arena new).stats = (view.turn arena.slots.length new).stats := by
  cases view with
  | none =>
      obtain rfl := hShows
      rw [rebuild_nothing]
      exact (Pass.turned_create new (.start arena)).2.stats.trans (Stats.zero_add _)
  | some shown =>
      obtain ⟨live, old⟩ := shown
      rw [rebuild_mounted hShows]
      have hFollows := LiveTree.follows_of_shape live old hShows.shape
      exact (Pass.turned_meet new (.start arena) live old hShows.holds hShows.nodup
        hFollows).2.stats.trans (Stats.zero_add _)

/-- **A rebuild leads from a view to the view after its turn.** -/
theorem shows_rebuild {retained : Retained H} {arena : Arena H} {view : View H}
    (hShows : retained.Shows arena view) (new : VirtualTree H) :
    (retained.rebuild arena new).retained.Shows (retained.rebuild arena new).arena
      (view.after arena.slots.length new) := by
  have hHolds := (redrawn_rebuild hShows new).shows
  cases view with
  | none =>
      obtain rfl := hShows
      have hRoot := (Pass.turned_create new (.start arena)).1
      exact
        { root := congrArg some (hRoot.trans (LiveTree.root_mount new _).symm)
          previous := rfl
          holds := hHolds
          nodup := LiveTree.nodup_ids_mount new arena.slots.length
          shape := LiveTree.shape_mount new arena.slots.length }
  | some shown =>
      obtain ⟨live, old⟩ := shown
      have hFollows := LiveTree.follows_of_shape live old hShows.shape
      have hRoot := (Pass.turned_meet new (.start arena) live old hShows.holds hShows.nodup
        hFollows).1
      exact
        { root := by
            rw [rebuild_mounted hShows]
            exact congrArg some hRoot
          previous := rfl
          holds := hHolds
          nodup := LiveTree.nodup_ids_meet new _ live old hShows.nodup
            (Pass.old_of_holds hShows.holds)
          shape := LiveTree.shape_meet new _ live old hFollows }

end Retained

end LiveMarkup.Live
