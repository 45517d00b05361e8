import LiveMarkup.Live.Outline
import LiveMarkup.Live.Reconcile
import LiveMarkup.Log

/-!
# Views bound to a live tree

A view that has been mounted retains two things: the virtual tree that it built last, and the root of
the live tree that shows it. A rebuild takes the tree that the view builds now, brings the live tree
in line with it and retains both. The first rebuild finds nothing retained and constructs everything.

## Main results

* `previous_rebuild` — after a rebuild the tree that was built is the one retained.
* `root_rebuild_isSome` — after a rebuild there is a live root.
-/

namespace LiveMarkup.Live

variable {H : Type}

/-- What a mounted view retains between rebuilds. -/
structure Retained (H : Type) where
  /-- The virtual tree built last. -/
  previous : Option (VirtualTree H)
  /-- The root of the live tree. -/
  root : Option Handle

/-- Nothing retained: the view has not been mounted. -/
def Retained.nothing : Retained H := ⟨none, none⟩

instance : Inhabited (Retained H) := ⟨.nothing⟩

/-- What a rebuild leaves behind. -/
structure Rebuilt (H : Type) where
  retained : Retained H
  arena : Arena H
  stats : Stats
  remarks : List Remark

/-- Brings the live tree in line with `next`, the tree that the view builds now. -/
def Retained.rebuild (retained : Retained H) (arena : Arena H) (next : VirtualTree H) : Rebuilt H :=
  let (root, pass) := (Pass.start arena).reconcile retained.root retained.previous (some next)
  ⟨⟨some next, root⟩, pass.arena, pass.stats, pass.remarks⟩

/-- After a rebuild the tree that was built is the one retained. -/
theorem Retained.previous_rebuild (retained : Retained H) (arena : Arena H)
    (next : VirtualTree H) : (retained.rebuild arena next).retained.previous = some next := rfl

/-- After a rebuild there is a live root. -/
theorem Retained.root_rebuild_isSome (retained : Retained H) (arena : Arena H)
    (next : VirtualTree H) : (retained.rebuild arena next).retained.root.isSome = true := by
  unfold Retained.rebuild Pass.reconcile
  cases retained.previous <;> rfl

/-- A mounted view with the counters of its last rebuild. -/
structure Binding (H : Type) where
  retained : Retained H
  lastStats : Stats

/-- A view that has not been mounted. -/
def Binding.unmounted : Binding H := ⟨.nothing, .zero⟩

instance : Inhabited (Binding H) := ⟨.unmounted⟩

/-- Rebuilds the view, whose state now builds `next`. -/
def Binding.rebuild (binding : Binding H) (arena : Arena H) (next : VirtualTree H) :
    Binding H × Rebuilt H :=
  let rebuilt := binding.retained.rebuild arena next
  (⟨rebuilt.retained, rebuilt.stats⟩, rebuilt)

/-! ## Log records -/

/-- A handle as log records name it. -/
def Handle.name : Handle → String
  | .null => "LiveId(null)"
  | .node number => "#" ++ toString number

/-- A remark of a pass as a log record. -/
def Remark.record (remark : Remark) : LogRecord where
  level := .trace
  component := "trellis_runtime::reconcile"
  message := match remark with
    | .construct tag => "construct " ++ tag
    | .typeChange old new => "type change " ++ old ++ " -> " ++ new
    | .dispose id => "dispose " ++ id.name
    | .removeChild index => "remove child " ++ toString index

/-- The record that sums up a rebuild of a tree with the given tag. -/
def Stats.record (stats : Stats) (tag : String) : LogRecord where
  level := .debug
  component := "trellis_runtime::host"
  message :=
    "rebuild " ++ tag
      ++ ": created=" ++ toString stats.created
      ++ " reused=" ++ toString stats.reused
      ++ " disposed=" ++ toString stats.disposed
      ++ " detached=" ++ toString stats.detached
      ++ " attached=" ++ toString stats.attached

/-- The records of a rebuild: what the pass remarked, and the sum of it. -/
def Rebuilt.records (rebuilt : Rebuilt H) : List LogRecord :=
  rebuilt.remarks.map Remark.record ++
    match rebuilt.retained.previous with
    | some tree => [rebuilt.stats.record tree.tag]
    | none => []

end LiveMarkup.Live
