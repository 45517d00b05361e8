import LiveMarkup.Proofs.Live.Disposal

/-!
# What the calls on record tell

A toolkit records the calls that it serves. The record names a node by its handle
and gives what was set and appended; of a handler that was attached it gives the
event. So it tells all of the nodes but their handlers, of which it tells the
events: the `Sketch` of each.

An `Album` holds the sketches of nodes behind their handles. `Album.replay` is what
a call means there, and it does not ask an arena: a construction puts a bare sketch
behind the handle on record, a disposal takes away what is reached from a handle,
and the other calls change the sketch behind one, if there is one.

## Main results

* `exists_record` — what a request puts on record is what it does to the nodes.
* `replay_record` — **the record is complete**: whatever is asked of a toolkit, and
  whenever its record is taken, what was recorded leads from the sketches at the
  start to those at the end.
-/

namespace LiveMarkup.Live

variable {H : Type}

/-- A node without its handlers, but with the events that they wait for. -/
structure Sketch (H : Type) where
  tag : String
  properties : Properties H
  /-- The events of the handlers, in the order in which these were attached. -/
  events : List String
  children : List Handle

/-- The sketch of a node. -/
def Node.sketch (node : Node H) : Sketch H :=
  ⟨node.tag, node.properties, node.handlers.map Prod.fst, node.children⟩

/-- Sketches of nodes behind their handles. -/
abbrev Album (H : Type) := Handle → Option (Sketch H)

/-- The sketches of the nodes of an arena. -/
def Arena.album (arena : Arena H) : Album H :=
  fun id => (arena.node? id).map Node.sketch

/-! ## Replaying calls -/

namespace Album

/-- The album with the sketch behind a handle changed by `f`, if there is one. -/
def alter (album : Album H) (id : Handle) (f : Sketch H → Sketch H) : Album H :=
  Function.update album id ((album id).map f)

/-- The handles that are reached from a root along child lists. -/
inductive Below (album : Album H) (root : Handle) : Handle → Prop where
  | root : Below album root root
  | child {parent child : Handle} {sketch : Sketch H} (hParent : Below album root parent)
      (hSketch : album parent = some sketch) (hChild : child ∈ sketch.children) :
      Below album root child

open Classical in
/-- The album without what is reached from a root. -/
noncomputable def without (album : Album H) (root : Handle) : Album H :=
  fun id => if album.Below root id then none else album id

/-- The album after a call. -/
noncomputable def replay (album : Album H) : Call H → Album H
  | .construct id tag => Function.update album id (some ⟨tag, .empty, [], []⟩)
  | .setProperty id name value =>
    album.alter id fun sketch => { sketch with properties := sketch.properties.set name value }
  | .addChild parent child =>
    album.alter parent fun sketch => { sketch with children := sketch.children ++ [child] }
  | .removeChildAt parent index =>
    album.alter parent fun sketch => { sketch with children := sketch.children.eraseIdx index }
  | .attachHandler id event =>
    album.alter id fun sketch => { sketch with events := sketch.events ++ [event] }
  | .dispose id => album.without id

/-- The album after calls in a row. -/
noncomputable def replayAll (album : Album H) (calls : List (Call H)) : Album H :=
  calls.foldl replay album

theorem replayAll_append (album : Album H) (front back : List (Call H)) :
    album.replayAll (front ++ back) = (album.replayAll front).replayAll back :=
  List.foldl_append

end Album

/-! ## One request -/

namespace Arena

/-- A change of one node is the change of its sketch. -/
theorem album_alter (arena : Arena H) (id : Handle) {f : Node H → Node H}
    {g : Sketch H → Sketch H} (h : ∀ node, (f node).sketch = g node.sketch) (call : Call H) :
    (arena.served (arena.slots.alter id f) call).album = arena.album.alter id g := by
  funext other
  change ((arena.slots.alter id f).node? other).map Node.sketch = _
  by_cases hEq : other = id
  · subst hEq
    rw [Slots.node?_alter_self, Album.alter, Function.update_self, album, Option.map_map,
      Option.map_map]
    exact congrFun (congrArg Option.map (funext h)) _
  · rw [Slots.node?_alter_ne arena.slots f hEq, Album.alter, Function.update_of_ne hEq]
    rfl

/-- A construction puts a bare sketch behind its handle. -/
theorem album_construct (arena : Arena H) (tag : String) :
    (arena.construct tag).2.album =
      Function.update arena.album arena.fresh (some ⟨tag, .empty, [], []⟩) := by
  funext id
  by_cases hFresh : id = arena.fresh
  · subst hFresh
    have hNode := arena.node?_construct_self tag
    rw [Function.update_self, album]
    exact congrArg (Option.map Node.sketch) hNode
  · rw [Function.update_of_ne hFresh, album, node?_construct_ne arena tag hFresh, album]

/-- What is reached is to be seen from the sketches. -/
theorem below_album_iff {arena : Arena H} {root id : Handle} :
    arena.album.Below root id ↔ arena.Below root id := by
  constructor <;> intro hBelow
  · induction hBelow with
    | root => exact .root
    | child _ hSketch hChild ih =>
        obtain ⟨node, hNode, rfl⟩ := Option.map_eq_some_iff.mp hSketch
        refine .child ih ?_
        rw [children, hNode]
        exact hChild
  · induction hBelow with
    | root => exact .root
    | child _ hChild ih =>
        obtain ⟨node, hNode, hMem⟩ := mem_children hChild
        exact .child ih (congrArg (Option.map Node.sketch) hNode) hMem

/-- A disposal takes away what is reached. -/
theorem album_dispose (arena : Arena H) (id : Handle) :
    (arena.dispose id).album = arena.album.without id := by
  funext other
  by_cases hBelow : arena.Below id other
  · rw [Album.without, if_pos (below_album_iff.mpr hBelow), album, node?_dispose_of_below hBelow]
    rfl
  · rw [Album.without, if_neg fun h => hBelow (below_album_iff.mp h), album,
      node?_dispose_of_not_below hBelow, album]

end Arena

/-- **What a request puts on record is what it does to the nodes.** A request for a
child that is not there does nothing, and nothing is put on record. -/
theorem exists_record (arena : Arena H) (request : Request H) :
    ∃ made, (arena.answer request).2.calls = arena.calls ++ made ∧
      arena.album.replayAll made = (arena.answer request).2.album := by
  cases request with
  | construct tag =>
      exact ⟨[.construct arena.fresh tag], rfl, (arena.album_construct tag).symm⟩
  | setProperty id name value =>
      exact ⟨[.setProperty id name value], rfl, (arena.album_alter id (fun _ => rfl) _).symm⟩
  | addChild parent child =>
      exact ⟨[.addChild parent child], rfl, (arena.album_alter parent (fun _ => rfl) _).symm⟩
  | removeChildAt parent index =>
      rw [Arena.answer, Arena.removeChildAt]
      cases (arena.node? parent).bind fun node => node.children[index]? with
      | none => exact ⟨[], (List.append_nil _).symm, rfl⟩
      | some child =>
          exact ⟨[.removeChildAt parent index], rfl,
            (arena.album_alter parent (fun _ => rfl) _).symm⟩
  | attachHandler id event handler =>
      refine ⟨[.attachHandler id event], rfl, (arena.album_alter id (fun node => ?_) _).symm⟩
      rw [Node.sketch, Node.sketch, List.map_append, List.map_singleton]
  | childAt parent index => exact ⟨[], (List.append_nil _).symm, rfl⟩
  | dispose id => exact ⟨[.dispose id], rfl, (arena.album_dispose id).symm⟩

/-! ## Toolkits in use -/

/-- What may be done with a toolkit: something is asked of it, or its record is taken. -/
inductive Use (H : Type) where
  | request (request : Request H)
  | takeCalls

/-- A toolkit in use, with the calls that were taken from its record so far. -/
structure Usage (H : Type) where
  arena : Arena H
  taken : List (Call H)

namespace Usage

/-- The toolkit used once more. -/
def step (usage : Usage H) : Use H → Usage H
  | .request request => { usage with arena := (usage.arena.answer request).2 }
  | .takeCalls =>
    { arena := usage.arena.takeCalls.2, taken := usage.taken ++ usage.arena.takeCalls.1 }

/-- All calls that were recorded: those that were taken and those still on record. -/
def record (usage : Usage H) : List (Call H) :=
  usage.taken ++ usage.arena.calls

theorem exists_record_step (usage : Usage H) (use : Use H) :
    ∃ made, (usage.step use).record = usage.record ++ made ∧
      usage.arena.album.replayAll made = (usage.step use).arena.album := by
  cases use with
  | request request =>
      obtain ⟨made, hCalls, hAlbum⟩ := exists_record usage.arena request
      refine ⟨made, ?_, hAlbum⟩
      rw [record, record, step, hCalls, List.append_assoc]
  | takeCalls =>
      refine ⟨[], ?_, rfl⟩
      rw [record, record, step, Arena.takeCalls]

theorem exists_record_foldl (usage : Usage H) (uses : List (Use H)) :
    ∃ made, (uses.foldl step usage).record = usage.record ++ made ∧
      usage.arena.album.replayAll made = (uses.foldl step usage).arena.album := by
  induction uses generalizing usage with
  | nil => exact ⟨[], (List.append_nil _).symm, rfl⟩
  | cons use uses ih =>
      obtain ⟨first, hFirst, hAlbum⟩ := usage.exists_record_step use
      obtain ⟨rest, hRest, hEnd⟩ := ih (usage.step use)
      refine ⟨first ++ rest, ?_, ?_⟩
      · rw [List.foldl_cons, hRest, hFirst, List.append_assoc]
      · rw [List.foldl_cons, Album.replayAll_append, hAlbum, hEnd]

end Usage

/-- An arena after uses in a row, with all that was taken from its record meanwhile. -/
def Arena.used (arena : Arena H) (uses : List (Use H)) : Usage H :=
  uses.foldl Usage.step ⟨arena, []⟩

/--
**The record is complete.** Whatever is asked of a toolkit in any state, of handles to
nothing too, and whenever its record is taken: the calls that were recorded meanwhile
stand behind those that were on record at the start, and they lead from the sketches
of its nodes at the start to those at the end.
-/
theorem replay_record (arena : Arena H) (uses : List (Use H)) :
    ∃ made, (arena.used uses).record = arena.calls ++ made ∧
      arena.album.replayAll made = (arena.used uses).arena.album :=
  Usage.exists_record_foldl ⟨arena, []⟩ uses

end LiveMarkup.Live
