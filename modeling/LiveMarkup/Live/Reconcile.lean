import LiveMarkup.Live.Arena
import LiveMarkup.Live.Stats

/-!
# Bringing a live tree in line with a virtual one

`reconcile` compares the virtual tree that a live tree was built from with a new one, position by
position, and makes the calls to the toolkit that the difference needs. Children are matched by their
place in the list alone. Where the tags of a position agree, its live node is kept and patched; where
they differ, the old live subtree is disposed of and a new one constructed.

While the children of a node are compared its list of live children is left alone. The edits that it
needs are collected and made in the end: first the detachments from the back to the front, then the
additions, which only append. So once a position is replaced, every kept child behind it has to be
taken out and put back.

Handlers belong to the live node for as long as it lives: they are attached when the node is
constructed and not looked at again.
-/

namespace LiveMarkup.Live

/-- A step of a pass that is worth a remark. -/
inductive Remark where
  | construct (tag : String)
  | typeChange (old new : String)
  | dispose (id : Handle)
  | removeChild (index : Nat)

/-- A pass under way: the toolkit, the counters, and the remarks so far. -/
structure Pass (H : Type) where
  arena : Arena H
  stats : Stats
  remarks : List Remark

/-- The edits that a list of live children needs. -/
structure Edits where
  /-- Places to be taken out, ascending. -/
  detach : List Nat
  /-- Children to be appended, in order. -/
  attach : List Handle
  /-- Whether a position has been replaced already. -/
  displaced : Bool

namespace Edits

/-- No edits. -/
def none : Edits := ⟨[], [], false⟩

/-- The edits with the one that the position `index` needs: `live` stood there before, and `result`
stands there now. -/
def settle (edits : Edits) (index : Nat) (live result : Option Handle) : Edits :=
  match result, live with
  | .none, .none => edits
  | .none, some _ => { edits with detach := edits.detach ++ [index] }
  | some node, .none => { edits with attach := edits.attach ++ [node] }
  | some node, some old =>
    if node = old && !edits.displaced then edits
    else ⟨edits.detach ++ [index], edits.attach ++ [node], edits.displaced || node ≠ old⟩

end Edits

namespace Pass

variable {H : Type}

/-- A pass that has not done anything yet. -/
def start (arena : Arena H) : Pass H := ⟨arena, .zero, []⟩

/-- The pass with one more remark. -/
def remark (pass : Pass H) (r : Remark) : Pass H :=
  { pass with remarks := pass.remarks ++ [r] }

/-- Disposes of a live subtree. -/
def dispose (pass : Pass H) (id : Handle) : Pass H :=
  { pass.remark (.dispose id) with
    arena := pass.arena.dispose id
    stats := { pass.stats with disposed := pass.stats.disposed + 1 } }

/-- Disposes of a live subtree if there is one. -/
def disposeIfLive (pass : Pass H) : Option Handle → Pass H
  | none => pass
  | some id => pass.dispose id

/-- Hands the properties of a fresh node to the toolkit by ascending name: handlers are attached,
other values set. -/
def initialise (arena : Arena H) (id : Handle) (properties : Properties H) : Arena H :=
  properties.sorted.foldl (fun arena (name, value) =>
    match value with
    | .handler h => arena.attachHandler id name h
    | value => arena.setProperty id name value) arena

/-- Sets the properties of a kept node by ascending name, handlers left out. -/
def patch (arena : Arena H) (id : Handle) (properties : Properties H) : Arena H :=
  properties.sorted.foldl (fun arena (name, value) =>
    if value.isHandler then arena else arena.setProperty id name value) arena

mutual

/-- Constructs the live tree of a virtual one. -/
def create (pass : Pass H) : VirtualTree H → Handle × Pass H
  | .node tag properties children =>
    let (id, arena) := pass.arena.construct tag
    let pass : Pass H :=
      { pass.remark (.construct tag) with
        arena := initialise arena id properties
        stats := { pass.stats with created := pass.stats.created + 1 } }
    (id, createAll pass id children)

/-- Constructs the live trees of virtual ones and appends each to the children of `parent`. -/
def createAll (pass : Pass H) (parent : Handle) : List (VirtualTree H) → Pass H
  | [] => pass
  | tree :: rest =>
    let (child, pass) := create pass tree
    createAll { pass with arena := pass.arena.addChild parent child } parent rest

end

/-- The positions from `index` on that only the old tree has: their live subtrees are dropped. -/
def dropRest (pass : Pass H) (parent : Handle) (index : Nat) (edits : Edits) :
    List (VirtualTree H) → Edits × Pass H
  | [] => (edits, pass)
  | _ :: rest =>
    let live := pass.arena.childAt? parent index
    dropRest (pass.disposeIfLive live) parent (index + 1) (edits.settle index live none) rest

/-- The positions from `index` on that only the new tree has: their live subtrees are constructed. -/
def createRest (pass : Pass H) (index : Nat) (edits : Edits) :
    List (VirtualTree H) → Edits × Pass H
  | [] => (edits, pass)
  | tree :: rest =>
    let (node, pass) := create pass tree
    createRest pass (index + 1) (edits.settle index none (some node)) rest

/-- Takes the children at the given places out of the list of `parent`, the last place first. -/
def detachAll (pass : Pass H) (parent : Handle) : List Nat → Pass H
  | [] => pass
  | index :: rest =>
    let pass := (detachAll pass parent rest).remark (.removeChild index)
    match pass.arena.removeChildAt parent index with
    | (none, _) => pass
    | (some _, arena) =>
      { pass with
        arena := arena
        stats := { pass.stats with detached := pass.stats.detached + 1 } }

/-- Appends the children to the list of `parent`. -/
def attachAll (pass : Pass H) (parent : Handle) : List Handle → Pass H
  | [] => pass
  | child :: rest =>
    attachAll
      { pass with
        arena := pass.arena.addChild parent child
        stats := { pass.stats with attached := pass.stats.attached + 1 } } parent rest

/-- Makes the edits in the list of the live children of `parent`. -/
def applyEdits (pass : Pass H) (parent : Handle) (edits : Edits) : Pass H :=
  (pass.detachAll parent edits.detach).attachAll parent edits.attach

mutual

/-- A position that both trees have. -/
def meet (pass : Pass H) (live : Option Handle) (old : VirtualTree H) :
    VirtualTree H → Handle × Pass H
  | .node tag properties children =>
    match live with
    | none => create pass (.node tag properties children)
    | some id =>
      if old.tag ≠ tag then
        create ((pass.remark (.typeChange old.tag tag)).dispose id) (.node tag properties children)
      else
        let pass : Pass H :=
          { pass with
            arena := patch pass.arena id properties
            stats := { pass.stats with reused := pass.stats.reused + 1 } }
        let (edits, pass) := meetAll pass id 0 .none old.children children
        (id, pass.applyEdits id edits)

/-- The positions from `index` on below a kept node: those that both trees have, and then those that
only one of them has. -/
def meetAll (pass : Pass H) (parent : Handle) (index : Nat) (edits : Edits) :
    List (VirtualTree H) → List (VirtualTree H) → Edits × Pass H
  | olds, [] => dropRest pass parent index edits olds
  | [], tree :: rest => createRest pass index edits (tree :: rest)
  | old :: olds, tree :: rest =>
    let live := pass.arena.childAt? parent index
    let (node, pass) := meet pass live old tree
    meetAll pass parent (index + 1) (edits.settle index live (some node)) olds rest

end

/-- Brings `live` in line with `new`, given that it was built from `old`. The answer is the live node
of the position: the same one if it was kept, a fresh one if it was constructed, none if `new` is
absent. -/
def reconcile (pass : Pass H) (live : Option Handle) (old new : Option (VirtualTree H)) :
    Option Handle × Pass H :=
  match old, new with
  | _, none => (none, pass.disposeIfLive live)
  | none, some new =>
    let (id, pass) := create (pass.disposeIfLive live) new
    (some id, pass)
  | some old, some new =>
    let (id, pass) := meet pass live old new
    (some id, pass)

end Pass

end LiveMarkup.Live
