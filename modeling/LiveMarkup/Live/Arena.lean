import LiveMarkup.Virtual.Tree

/-!
# The arena of live nodes

A toolkit held in memory. Its nodes stand in slots, numbered in the order of their construction; a
slot is emptied when its node is disposed of and never used again, so a handle keeps its meaning for
good. Child lists hold handles, and nothing forces them to form a tree: a child may be shared, may be
its own ancestor, or may be gone.

Every call that the toolkit serves is recorded.

## Main results

* `node?_construct_self`, `node?_construct_ne` — a construction fills one fresh slot.
* `node?_alter_self`, `node?_alter_ne` — a change of one node leaves the others alone.
* `liveCount_empty_lt` — emptying the slot of a live node leaves fewer live nodes.
-/

namespace LiveMarkup.Live

/-- A reference to a live node, or to nothing at all. -/
inductive Handle where
  /-- The handle to nothing. -/
  | null
  /-- The handle to the node that was constructed when `number` nodes had been constructed before. -/
  | node (number : Nat)
  deriving DecidableEq, Repr, Inhabited

/-- A node of the toolkit. -/
structure Node (H : Type) where
  tag : String
  properties : Properties H
  /-- Handlers with the event that each waits for, in the order in which they were attached. -/
  handlers : List (String × H)
  children : List Handle

/-- A call to the toolkit. -/
inductive Call (H : Type) where
  | construct (id : Handle) (tag : String)
  | setProperty (id : Handle) (name : String) (value : Value H)
  | addChild (parent child : Handle)
  | removeChildAt (parent : Handle) (index : Nat)
  | attachHandler (id : Handle) (event : String)
  | dispose (id : Handle)

/-- The slots of an arena, by number. -/
abbrev Slots (H : Type) := List (Option (Node H))

namespace Slots

variable {H : Type}

/-- The node behind a handle. -/
def node? (slots : Slots H) : Handle → Option (Node H)
  | .null => none
  | .node number => (slots[number]?).join

/-- The number of nodes that are there. -/
def liveCount (slots : Slots H) : Nat :=
  slots.countP Option.isSome

/-- The slots with the node behind the handle changed by `f`, if there is one. -/
def alter (slots : Slots H) (id : Handle) (f : Node H → Node H) : Slots H :=
  match id with
  | .null => slots
  | .node number => slots.modify number (Option.map f)

/-- The slots without the node behind the handle. -/
def empty (slots : Slots H) : Handle → Slots H
  | .null => slots
  | .node number => slots.set number none

/-- Emptying the slot of a live node leaves fewer live nodes. -/
theorem liveCount_empty_lt {slots : Slots H} {id : Handle} {node : Node H}
    (h : slots.node? id = some node) : (slots.empty id).liveCount < slots.liveCount := by
  cases id with
  | null => simp [node?] at h
  | node number =>
    simp only [node?, Option.join_eq_some_iff] at h
    simp only [empty, liveCount]
    induction slots generalizing number with
    | nil => simp at h
    | cons slot rest ih =>
      cases number with
      | zero =>
        simp only [List.getElem?_cons_zero, Option.some.injEq] at h
        subst h
        simp
      | succ number =>
        simp only [List.getElem?_cons_succ] at h
        have := ih number h
        simp only [List.set_cons_succ, List.countP_cons]
        omega

/-- The node that was changed, if it was there. -/
theorem node?_alter_self (slots : Slots H) (id : Handle) (f : Node H → Node H) :
    (slots.alter id f).node? id = (slots.node? id).map f := by
  cases id with
  | null => rfl
  | node number =>
    simp only [alter, node?, List.getElem?_modify_eq]
    cases slots[number]? with
    | none => rfl
    | some slot => cases slot <;> rfl

/-- A change of one node leaves the others alone. -/
theorem node?_alter_ne (slots : Slots H) {id other : Handle} (f : Node H → Node H)
    (h : other ≠ id) : (slots.alter id f).node? other = slots.node? other := by
  cases id with
  | null => rfl
  | node number =>
    cases other with
    | null => rfl
    | node other =>
      have hne : number ≠ other := fun heq => h (by rw [heq])
      simp only [alter, node?, List.getElem?_modify_ne (h := hne)]

/-- Empties the slots of the given handles and of everything below them, in depth-first order. The
child lists of the nodes are followed as they were when the node was emptied; a handle whose node is
gone is passed over. -/
def emptyAll (slots : Slots H) : List Handle → Slots H
  | [] => slots
  | id :: work =>
    match _h : slots.node? id with
    | none => emptyAll slots work
    | some node => emptyAll (slots.empty id) (node.children ++ work)
termination_by work => (slots.liveCount, work.length)
decreasing_by
  · exact Prod.Lex.right _ (Nat.lt_succ_self _)
  · exact Prod.Lex.left _ _ (liveCount_empty_lt _h)

end Slots

/-- A toolkit in memory: its nodes, and the calls that it has served. -/
structure Arena (H : Type) where
  slots : Slots H
  /-- The calls served since the record was last taken, the earliest first. -/
  calls : List (Call H)

namespace Arena

variable {H : Type}

/-- An arena without nodes. -/
def empty : Arena H := ⟨[], []⟩

instance : Inhabited (Arena H) := ⟨empty⟩

/-- The node behind a handle. -/
def node? (arena : Arena H) (id : Handle) : Option (Node H) :=
  arena.slots.node? id

/-- The number of live nodes. -/
def size (arena : Arena H) : Nat := arena.slots.liveCount

/-- Whether no node is live. -/
def isEmpty (arena : Arena H) : Bool := arena.size == 0

/-- The arena with one more call on record. -/
def record (arena : Arena H) (call : Call H) : Arena H :=
  { arena with calls := arena.calls ++ [call] }

/-- The handle that the next construction gives out. -/
def fresh (arena : Arena H) : Handle := .node arena.slots.length

/-! ## The calls -/

/-- The arena after a call that left the slots as given. -/
def served (arena : Arena H) (slots : Slots H) (call : Call H) : Arena H :=
  Arena.record { arena with slots } call

/-- Constructs a node without properties, handlers and children. -/
def construct (arena : Arena H) (tag : String) : Handle × Arena H :=
  (arena.fresh, arena.served (arena.slots ++ [some ⟨tag, .empty, [], []⟩])
    (.construct arena.fresh tag))

/-- Sets a property of a node. -/
def setProperty (arena : Arena H) (id : Handle) (name : String) (value : Value H) : Arena H :=
  arena.served
    (arena.slots.alter id fun node =>
      { node with properties := node.properties.set name value })
    (.setProperty id name value)

/-- Appends a child to a node. -/
def addChild (arena : Arena H) (parent child : Handle) : Arena H :=
  arena.served
    (arena.slots.alter parent fun node => { node with children := node.children ++ [child] })
    (.addChild parent child)

/-- Takes a child out of the list of its parent, without disposing of it. A place that does not exist
is no call at all. -/
def removeChildAt (arena : Arena H) (parent : Handle) (index : Nat) : Option Handle × Arena H :=
  match (arena.node? parent).bind fun node => node.children[index]? with
  | none => (none, arena)
  | some child =>
    (some child, arena.served
      (arena.slots.alter parent fun node => { node with children := node.children.eraseIdx index })
      (.removeChildAt parent index))

/-- Attaches a handler for an event to a node. -/
def attachHandler (arena : Arena H) (id : Handle) (event : String) (handler : H) : Arena H :=
  arena.served
    (arena.slots.alter id fun node => { node with handlers := node.handlers ++ [(event, handler)] })
    (.attachHandler id event)

/-- Disposes of a node and of everything below it. -/
def dispose (arena : Arena H) (id : Handle) : Arena H :=
  arena.served (arena.slots.emptyAll [id]) (.dispose id)

/-- The calls on record, and the arena with an empty record. -/
def takeCalls (arena : Arena H) : List (Call H) × Arena H :=
  (arena.calls, { arena with calls := [] })

/-! ## Questions to the toolkit -/

/-- The value of a property of a node. -/
def property? (arena : Arena H) (id : Handle) (name : String) : Option (Value H) :=
  (arena.node? id).bind fun node => node.properties.get? name

/-- The children of a node; a handle to nothing has none. -/
def children (arena : Arena H) (id : Handle) : List Handle :=
  match arena.node? id with
  | some node => node.children
  | none => []

/-- The child at a place in the list of a node. -/
def childAt? (arena : Arena H) (id : Handle) (index : Nat) : Option Handle :=
  (arena.children id)[index]?

/-- The handlers that an event at a node runs, in the order in which they were attached. -/
def fired (arena : Arena H) (id : Handle) (event : String) : List H :=
  match arena.node? id with
  | some node => (node.handlers.filter fun handler => handler.1 == event).map Prod.snd
  | none => []

/-! ## What the calls do to the nodes -/

@[simp] theorem node?_record (arena : Arena H) (call : Call H) (id : Handle) :
    (arena.record call).node? id = arena.node? id := rfl

/-- The constructed node is there, and it is bare. -/
theorem node?_construct_self (arena : Arena H) (tag : String) :
    (arena.construct tag).2.node? (arena.construct tag).1 = some ⟨tag, .empty, [], []⟩ := by
  simp [construct, served, node?, Slots.node?, fresh, record]

/-- A construction leaves the other nodes alone. -/
theorem node?_construct_ne (arena : Arena H) (tag : String) {id : Handle}
    (h : id ≠ arena.fresh) : (arena.construct tag).2.node? id = arena.node? id := by
  cases id with
  | null => rfl
  | node number =>
    have hne : number ≠ arena.slots.length := fun heq => h (by rw [heq, fresh])
    simp only [construct, served, node?, Slots.node?, record]
    rcases Nat.lt_or_ge number arena.slots.length with hlt | hge
    · rw [List.getElem?_append_left hlt]
    · rw [List.getElem?_eq_none (by simp; omega), List.getElem?_eq_none (by omega)]

/-- Nothing is found behind a handle that has not been given out yet. -/
theorem node?_eq_none_of_le (arena : Arena H) {number : Nat}
    (h : arena.slots.length ≤ number) : arena.node? (.node number) = none := by
  simp [node?, Slots.node?, List.getElem?_eq_none h]

end Arena

end LiveMarkup.Live
