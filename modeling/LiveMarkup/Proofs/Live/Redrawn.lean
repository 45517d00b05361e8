import LiveMarkup.Live.Reconcile
import LiveMarkup.Proofs.Live.LiveTree
import LiveMarkup.Proofs.Live.Overlay

/-!
# What becomes of an arena

`Arena.Redrawn before after gone shown fresh made` accounts for everything that
some calls did to an arena: the nodes `shown` stand in it afterwards, the nodes
behind the handles `gone` do not unless they are shown again, nothing is
changed behind any other handle, `fresh` handles were given out, and the calls
`made` were recorded.

Every call to the toolkit has such an account, and accounts of calls one after
the other compose. The specifications of a pass are accounts, so they say at
once what a pass does to a tree and what it leaves alone.

## Main results

* `Redrawn.append` — calls on nodes that lie apart.
* `Redrawn.retouch` — a further change of a node that is shown already.
* `redrawn_construct`, `redrawn_alter`, `redrawn_dispose` — the single calls.
* `redrawn_initialise`, `redrawn_patch` — the properties of a fresh node and of
  a kept one.
-/

namespace LiveMarkup

variable {H : Type}

namespace Live

namespace Arena

/-- An account of what was done to an arena. -/
structure Redrawn (before after : Arena H) (gone : List Handle)
    (shown : List (Handle × Node H)) (fresh : Nat) (made : List (Call H)) : Prop where
  shows : after.Holds shown
  empties : ∀ id ∈ gone, id ∉ shown.map Prod.fst → after.node? id = none
  keeps : ∀ id, id ∉ gone → id ∉ shown.map Prod.fst → after.node? id = before.node? id
  length : after.slots.length = before.slots.length + fresh
  calls : after.calls = before.calls ++ made

namespace Redrawn

variable {before mid after : Arena H} {gone gone' : List Handle}
  {shown shown' : List (Handle × Node H)} {fresh fresh' : Nat} {made made' : List (Call H)}

theorem refl (arena : Arena H) : arena.Redrawn arena [] [] 0 [] where
  shows := by simp [Holds, Slots.Holds]
  empties := by simp
  keeps := fun _ _ _ => rfl
  length := rfl
  calls := by simp

/-- What stands apart from the account stands as before. -/
theorem holds_apart (h : before.Redrawn after gone shown fresh made)
    {entries : List (Handle × Node H)} (hHolds : before.Holds entries)
    (hGone : ∀ id ∈ entries.map Prod.fst, id ∉ gone)
    (hShown : ∀ id ∈ entries.map Prod.fst, id ∉ shown.map Prod.fst) : after.Holds entries :=
  hHolds.congr fun id hMem => h.keeps id (hGone id hMem) (hShown id hMem)

/-- **Calls one after the other**, where the later ones leave the nodes alone
that the earlier ones show. -/
theorem append (h : before.Redrawn mid gone shown fresh made)
    (h' : mid.Redrawn after gone' shown' fresh' made')
    (hGone : ∀ id ∈ shown.map Prod.fst, id ∉ gone')
    (hShown : ∀ id ∈ shown.map Prod.fst, id ∉ shown'.map Prod.fst) :
    before.Redrawn after (gone ++ gone') (shown ++ shown') (fresh + fresh') (made ++ made') where
  shows := Slots.holds_append.mpr ⟨h'.holds_apart h.shows hGone hShown, h'.shows⟩
  empties := by
    intro id hMem hNot
    rw [List.map_append, List.mem_append, not_or] at hNot
    by_cases hLater : id ∈ gone'
    · exact h'.empties id hLater hNot.2
    · rw [h'.keeps id hLater hNot.2]
      exact h.empties id ((List.mem_append.mp hMem).resolve_right hLater) hNot.1
  keeps := by
    intro id hMem hNot
    rw [List.mem_append, not_or] at hMem
    rw [List.map_append, List.mem_append, not_or] at hNot
    rw [h'.keeps id hMem.2 hNot.2, h.keeps id hMem.1 hNot.1]
  length := by rw [h'.length, h.length, Nat.add_assoc]
  calls := by rw [h'.calls, h.calls, List.append_assoc]

/-- A further change of the first node that is shown. -/
theorem retouch {id : Handle} {node node' : Node H}
    (h : before.Redrawn mid gone ((id, node) :: shown) fresh made)
    (h' : mid.Redrawn after [] [(id, node')] 0 made') (hApart : id ∉ shown.map Prod.fst) :
    before.Redrawn after gone ((id, node') :: shown) fresh (made ++ made') where
  shows := by
    have hFirst : after.node? id = some node' := h'.shows (id, node') (by simp)
    refine Slots.holds_cons.mpr ⟨hFirst, ?_⟩
    refine h'.holds_apart (Slots.holds_cons.mp h.shows).2 (by simp) ?_
    intro other hMem hEq
    have hOther : other = id := by simpa using hEq
    exact hApart (hOther ▸ hMem)
  empties := by
    intro other hMem hNot
    rw [h'.keeps other (by simp) (by simp_all)]
    exact h.empties other hMem (by simpa using hNot)
  keeps := by
    intro other hMem hNot
    rw [h'.keeps other (by simp) (by simp_all)]
    exact h.keeps other hMem (by simpa using hNot)
  length := by rw [h'.length, h.length]; rfl
  calls := by rw [h'.calls, h.calls, List.append_assoc]

theorem node?_first {id : Handle} {node : Node H}
    (h : before.Redrawn after gone ((id, node) :: shown) fresh made) :
    after.node? id = some node :=
  (Slots.holds_cons.mp h.shows).1

/-- A node that is there, shown without a change of it. -/
theorem of_holds {arena : Arena H} {id : Handle} {node : Node H}
    (h : arena.node? id = some node) : arena.Redrawn arena [] [(id, node)] 0 [] where
  shows := Slots.holds_cons.mpr ⟨h, by simp [Slots.Holds]⟩
  empties := by simp
  keeps := fun _ _ _ => rfl
  length := rfl
  calls := by simp

end Redrawn

/-! ## The single calls -/

@[simp] theorem slots_served (arena : Arena H) (slots : Slots H) (call : Call H) :
    (arena.served slots call).slots = slots := rfl

@[simp] theorem calls_served (arena : Arena H) (slots : Slots H) (call : Call H) :
    (arena.served slots call).calls = arena.calls ++ [call] := rfl

/-- A construction shows a bare node behind the next handle. -/
theorem redrawn_construct (arena : Arena H) (tag : String) :
    arena.Redrawn (arena.construct tag).2 [] [(arena.fresh, ⟨tag, .empty, [], []⟩)] 1
      [.construct arena.fresh tag] where
  shows := Slots.holds_cons.mpr ⟨node?_construct_self arena tag, by simp [Slots.Holds]⟩
  empties := by simp
  keeps := fun id _ hNot => node?_construct_ne arena tag (by simpa using hNot)
  length := by simp [construct]
  calls := rfl

/-- A call that changes one node shows it changed. -/
theorem redrawn_alter (arena : Arena H) {id : Handle} {node : Node H} (f : Node H → Node H)
    (call : Call H) (h : arena.node? id = some node) :
    arena.Redrawn (arena.served (arena.slots.alter id f) call) [] [(id, f node)] 0 [call] where
  shows := by
    refine Slots.holds_cons.mpr ⟨?_, by simp [Slots.Holds]⟩
    rw [slots_served, Slots.node?_alter_self, show arena.slots.node? id = some node from h]
    rfl
  empties := by simp
  keeps := fun other _ hNot => Slots.node?_alter_ne arena.slots f (by simpa using hNot)
  length := by
    rw [slots_served]
    cases id <;> simp [Slots.alter]
  calls := rfl

/-- Disposing of a live tree takes its nodes out, and nothing else. -/
theorem redrawn_dispose (arena : Arena H) (tree : LiveTree H) (hHolds : arena.Holds tree.nodes)
    (hNodup : tree.ids.Nodup) :
    arena.Redrawn (arena.dispose tree.root) tree.ids [] 0 [.dispose tree.root] := by
  have hSlots : (arena.dispose tree.root).slots = tree.ids.foldl Slots.empty arena.slots := by
    rw [dispose, slots_served, emptyAll_of_holds tree arena.slots [] hHolds hNodup, Slots.emptyAll]
  have hNode (id : Handle) : (arena.dispose tree.root).node? id =
      if id ∈ tree.ids then none else arena.node? id := by
    rw [node?, hSlots, Slots.node?_foldl_empty, node?]
  exact
    { shows := by simp [Holds, Slots.Holds]
      empties := fun id hMem _ => by rw [hNode, if_pos hMem]
      keeps := fun id hMem _ => by rw [hNode, if_neg hMem]
      length := by rw [hSlots, Slots.length_foldl_empty]; rfl
      calls := rfl }

/-! ## The properties of a node -/

/-- The calls that hand the properties of a fresh node over. -/
def initialCalls (id : Handle) (properties : Properties H) : List (Call H) :=
  properties.sorted.map fun entry =>
    match entry.2 with
    | .handler _ => .attachHandler id entry.1
    | value => .setProperty id entry.1 value

/-- The calls that set the properties of a kept node. -/
def patchCalls (id : Handle) (properties : Properties H) : List (Call H) :=
  (properties.sorted.filter (!·.2.isHandler)).map fun entry => .setProperty id entry.1 entry.2

/-- Setting a property shows the node with it. -/
theorem redrawn_setProperty (arena : Arena H) {id : Handle} {node : Node H}
    (h : arena.node? id = some node) (name : String) (value : Value H) :
    arena.Redrawn (arena.setProperty id name value) []
      [(id, { node with properties := node.properties.set name value })] 0
      [.setProperty id name value] :=
  redrawn_alter arena (fun node => { node with properties := node.properties.set name value }) _ h

/-- Attaching a handler shows the node with it. -/
theorem redrawn_attachHandler (arena : Arena H) {id : Handle} {node : Node H}
    (h : arena.node? id = some node) (event : String) (handler : H) :
    arena.Redrawn (arena.attachHandler id event handler) []
      [(id, { node with handlers := node.handlers ++ [(event, handler)] })] 0
      [.attachHandler id event] :=
  redrawn_alter arena (fun node => { node with handlers := node.handlers ++ [(event, handler)] })
    _ h

/-- Appending a child shows the parent with it. -/
theorem redrawn_addChild (arena : Arena H) {parent : Handle} {node : Node H}
    (h : arena.node? parent = some node) (child : Handle) :
    arena.Redrawn (arena.addChild parent child) []
      [(parent, { node with children := node.children ++ [child] })] 0
      [.addChild parent child] :=
  redrawn_alter arena (fun node => { node with children := node.children ++ [child] }) _ h

end Arena

namespace Pass

open Arena

/-- The properties of a fresh node: handlers are attached, other values set. -/
theorem redrawn_initialise (arena : Arena H) {id : Handle} {node : Node H}
    (h : arena.node? id = some node) (properties : Properties H) :
    arena.Redrawn (initialise arena id properties) []
      [(id, { node with
        properties := node.properties.overlay properties
        handlers := node.handlers ++ properties.handlers })] 0
      (initialCalls id properties) := by
  simp only [initialise, Properties.overlay, Properties.handlers, initialCalls]
  generalize properties.sorted = entries
  induction entries generalizing arena node with
  | nil => simpa [Properties.handlersOf] using Redrawn.of_holds h
  | cons entry rest ih =>
      obtain ⟨name, value⟩ := entry
      have hSet := redrawn_setProperty arena h name value
      cases value with
      | handler handler =>
          have hStep := redrawn_attachHandler arena h name handler
          have hRest := hStep.retouch (ih _ hStep.node?_first) (by simp)
          simpa [Properties.handlersOf, Value.asHandler?, Value.isHandler] using hRest
      | _ =>
          have hRest := hSet.retouch (ih _ hSet.node?_first) (by simp)
          simpa [Properties.handlersOf, Value.asHandler?, Value.isHandler] using hRest

/-- The properties of a kept node: handlers are left out. -/
theorem redrawn_patch (arena : Arena H) {id : Handle} {node : Node H}
    (h : arena.node? id = some node) (properties : Properties H) :
    arena.Redrawn (patch arena id properties) []
      [(id, { node with properties := node.properties.overlay properties })] 0
      (patchCalls id properties) := by
  simp only [patch, Properties.overlay, patchCalls]
  generalize properties.sorted = entries
  induction entries generalizing arena node with
  | nil => exact Redrawn.of_holds h
  | cons entry rest ih =>
      obtain ⟨name, value⟩ := entry
      cases hHandler : value.isHandler with
      | true => simpa [hHandler] using ih arena h
      | false =>
          have hStep := redrawn_setProperty arena h name value
          have hRest := hStep.retouch (ih _ hStep.node?_first) (by simp)
          simpa [hHandler] using hRest

end Pass

end Live

end LiveMarkup
