import LiveMarkup.Proofs.Live.Pass

/-!
# A pass as a script of requests

A pass knows its toolkit by seven requests alone. A `Script` is a program that
makes such requests, one at a time, and goes on from the answers. Run on an
arena, a script has a result and a changed arena; besides, it has a log of the
moments at which it made a request, each with the arena as it was then.

The functions of a pass are scripts once their counters and remarks are left
out. Running the script of a pass gives what the pass gives, so whatever its
log says is said of the pass.

## Main results

* `leads_log` — the requests of a log lead from the arena at the start to the
  arena at the end.
* `run_create`, `run_meet`, `run_reconcile` — **a pass is the run of its
  script**.
-/

namespace LiveMarkup.Live

variable {H : Type}

/-! ## Requests -/

/-- A request to a toolkit. -/
inductive Request (H : Type) where
  | construct (tag : String)
  | setProperty (id : Handle) (name : String) (value : Value H)
  | addChild (parent child : Handle)
  | removeChildAt (parent : Handle) (index : Nat)
  | attachHandler (id : Handle) (event : String) (handler : H)
  | childAt (parent : Handle) (index : Nat)
  | dispose (id : Handle)

/-- What a toolkit answers. -/
abbrev Request.Answer : Request H → Type
  | construct _ => Handle
  | removeChildAt _ _ => Option Handle
  | childAt _ _ => Option Handle
  | _ => Unit

/-- The answer to a request, and the arena after it. -/
def Arena.answer (arena : Arena H) : (request : Request H) → request.Answer × Arena H
  | .construct tag => arena.construct tag
  | .setProperty id name value => ((), arena.setProperty id name value)
  | .addChild parent child => ((), arena.addChild parent child)
  | .removeChildAt parent index => arena.removeChildAt parent index
  | .attachHandler id event handler => ((), arena.attachHandler id event handler)
  | .childAt parent index => (arena.childAt? parent index, arena)
  | .dispose id => ((), arena.dispose id)

/-- A request and the arena to which it was made. -/
structure Moment (H : Type) where
  arena : Arena H
  request : Request H

/-- The arena after the request. -/
def Moment.after (moment : Moment H) : Arena H :=
  (moment.arena.answer moment.request).2

/-- The moments follow one another: each arena is what the request before has
left, the first one is `start`, and the last request leads to `stop`. -/
inductive Leads : Arena H → List (Moment H) → Arena H → Prop where
  | nil (arena : Arena H) : Leads arena [] arena
  | cons (moment : Moment H) {log : List (Moment H)} {stop : Arena H}
      (h : Leads moment.after log stop) : Leads moment.arena (moment :: log) stop

theorem Leads.append {start mid stop : Arena H} {log log' : List (Moment H)}
    (h : Leads start log mid) (h' : Leads mid log' stop) : Leads start (log ++ log') stop := by
  induction h with
  | nil => exact h'
  | cons moment _ ih => exact .cons moment (ih h')

/-! ## Scripts -/

/-- A program that makes requests and goes on from the answers. -/
inductive Script (H α : Type) where
  | done (result : α)
  | ask (request : Request H) (next : request.Answer → Script H α)

namespace Script

variable {α β : Type}

/-- A script and another one that goes on from its result. -/
def bind : Script H α → (α → Script H β) → Script H β
  | done result, next => next result
  | ask request more, next => ask request fun answer => (more answer).bind next

instance : Monad (Script H) where
  pure := done
  bind := bind

/-- The script that makes one request. -/
def request (request : Request H) : Script H request.Answer :=
  ask request done

/-- The script that makes requests in a row, whatever the answers. -/
def requestAll : List (Request H) → Script H Unit
  | [] => pure ()
  | first :: rest => do
    let _ ← request first
    requestAll rest

/-- The result of a script on an arena, and the arena afterwards. -/
def run : Script H α → Arena H → α × Arena H
  | done result, arena => (result, arena)
  | ask request next, arena => (next (arena.answer request).1).run (arena.answer request).2

/-- The moments at which a script makes its requests. -/
def log : Script H α → Arena H → List (Moment H)
  | done _, _ => []
  | ask request next, arena =>
    ⟨arena, request⟩ :: (next (arena.answer request).1).log (arena.answer request).2

@[simp] theorem run_pure (result : α) (arena : Arena H) :
    (pure result : Script H α).run arena = (result, arena) := rfl

@[simp] theorem run_request (request : Request H) (arena : Arena H) :
    (Script.request request).run arena = arena.answer request := rfl

@[simp] theorem run_bind (script : Script H α) (next : α → Script H β) (arena : Arena H) :
    (script >>= next).run arena = (next (script.run arena).1).run (script.run arena).2 := by
  change (script.bind next).run arena = _
  induction script generalizing arena with
  | done result => rfl
  | ask request more ih => exact ih _ _

theorem run_map (f : α → β) (script : Script H α) (arena : Arena H) :
    (f <$> script).run arena = (f (script.run arena).1, (script.run arena).2) :=
  run_bind script (fun result => pure (f result)) arena

@[simp] theorem log_pure (result : α) (arena : Arena H) :
    (pure result : Script H α).log arena = [] := rfl

@[simp] theorem log_request (request : Request H) (arena : Arena H) :
    (Script.request request).log arena = [⟨arena, request⟩] := rfl

@[simp] theorem log_bind (script : Script H α) (next : α → Script H β) (arena : Arena H) :
    (script >>= next).log arena =
      script.log arena ++ (next (script.run arena).1).log (script.run arena).2 := by
  change (script.bind next).log arena = _
  induction script generalizing arena with
  | done result => rfl
  | ask request more ih =>
      rw [bind, log, log, ih]
      rfl

theorem log_map (f : α → β) (script : Script H α) (arena : Arena H) :
    (f <$> script).log arena = script.log arena := by
  refine (log_bind script (fun result => pure (f result)) arena).trans ?_
  rw [log_pure, List.append_nil]

/-- **The requests of a log lead from the arena at the start to the arena at the
end.** -/
theorem leads_log (script : Script H α) (arena : Arena H) :
    Leads arena (script.log arena) (script.run arena).2 := by
  induction script generalizing arena with
  | done result => exact .nil arena
  | ask request more ih => exact .cons ⟨arena, request⟩ (ih _ _)

/-! ## The scripts of a pass -/

/-- The request that hands a property of a fresh node over. -/
def initial (id : Handle) (entry : String × Value H) : Request H :=
  match entry.2 with
  | .handler handler => .attachHandler id entry.1 handler
  | value => .setProperty id entry.1 value

/-- Hands the properties of a fresh node over by ascending name. -/
def initialise (id : Handle) (properties : Properties H) : Script H Unit :=
  requestAll (properties.sorted.map (initial id))

/-- Sets the properties of a kept node by ascending name, handlers left out. -/
def patch (id : Handle) (properties : Properties H) : Script H Unit :=
  requestAll ((properties.sorted.filter (!·.2.isHandler)).map fun entry =>
    .setProperty id entry.1 entry.2)

mutual

/-- Constructs the live tree of a virtual one. -/
def create : VirtualTree H → Script H Handle
  | .node tag properties children => do
    let id ← request (.construct tag)
    initialise id properties
    createAll id children
    return id

/-- Constructs the live trees of virtual ones and appends each to the children of `parent`. -/
def createAll (parent : Handle) : List (VirtualTree H) → Script H Unit
  | [] => pure ()
  | tree :: rest => do
    let child ← create tree
    request (.addChild parent child)
    createAll parent rest

end

/-- Disposes of a live subtree if there is one. -/
def disposeIfLive : Option Handle → Script H Unit
  | none => pure ()
  | some id => request (.dispose id)

/-- Drops the live subtrees of the positions that only the old tree has. -/
def dropRest (parent : Handle) (index : Nat) (edits : Edits) :
    List (VirtualTree H) → Script H Edits
  | [] => pure edits
  | _ :: rest => do
    let live ← request (.childAt parent index)
    disposeIfLive live
    dropRest parent (index + 1) (edits.settle index live none) rest

/-- Constructs the live subtrees of the positions that only the new tree has. -/
def createRest (index : Nat) (edits : Edits) : List (VirtualTree H) → Script H Edits
  | [] => pure edits
  | tree :: rest => do
    let node ← create tree
    createRest (index + 1) (edits.settle index none (some node)) rest

/-- Makes the edits in the list of the live children of `parent`. -/
def applyEdits (parent : Handle) (edits : Edits) : Script H Unit := do
  requestAll (edits.detach.reverse.map (.removeChildAt parent ·))
  requestAll (edits.attach.map (.addChild parent ·))

mutual

/-- A position that both trees have. -/
def meet (live : Option Handle) (old : VirtualTree H) : VirtualTree H → Script H Handle
  | .node tag properties children =>
    match live with
    | none => create (.node tag properties children)
    | some id =>
      if old.tag ≠ tag then do
        request (.dispose id)
        create (.node tag properties children)
      else do
        patch id properties
        let edits ← meetAll id 0 .none old.children children
        applyEdits id edits
        return id

/-- The positions from `index` on below a kept node. -/
def meetAll (parent : Handle) (index : Nat) (edits : Edits) :
    List (VirtualTree H) → List (VirtualTree H) → Script H Edits
  | olds, [] => dropRest parent index edits olds
  | [], tree :: rest => createRest index edits (tree :: rest)
  | old :: olds, tree :: rest => do
    let live ← request (.childAt parent index)
    let node ← meet live old tree
    meetAll parent (index + 1) (edits.settle index live (some node)) olds rest

end

/-- Brings `live` in line with `new`, given that it was built from `old`. -/
def reconcile (live : Option Handle) (old new : Option (VirtualTree H)) :
    Script H (Option Handle) :=
  match old, new with
  | _, none => do
    disposeIfLive live
    return none
  | none, some new => do
    disposeIfLive live
    some <$> create new
  | some old, some new => some <$> meet live old new

/-! ## Running them -/

/-- Requests whose answers are not looked at change an arena one after the other. -/
theorem run_requestAll (requests : List (Request H)) (arena : Arena H) :
    (requestAll requests).run arena =
      ((), requests.foldl (fun arena request => (arena.answer request).2) arena) := by
  induction requests generalizing arena with
  | nil => rfl
  | cons first rest ih =>
      rw [requestAll, run_bind, run_request, ih, List.foldl_cons]

theorem run_initialise (id : Handle) (properties : Properties H) (arena : Arena H) :
    (initialise id properties).run arena = ((), Pass.initialise arena id properties) := by
  rw [initialise, run_requestAll, List.foldl_map, Pass.initialise]
  congr 2
  funext arena entry
  obtain ⟨name, value⟩ := entry
  cases value <;> rfl

theorem run_patch (id : Handle) (properties : Properties H) (arena : Arena H) :
    (patch id properties).run arena = ((), Pass.patch arena id properties) := by
  rw [patch, run_requestAll, List.foldl_map, List.foldl_filter, Pass.patch]
  congr 2
  funext arena entry
  obtain ⟨name, value⟩ := entry
  cases value <;> rfl

mutual

/-- Constructing a tree is the run of its script. -/
theorem run_create : (tree : VirtualTree H) → (pass : Pass H) →
    (create tree).run pass.arena = ((Pass.create pass tree).1, (Pass.create pass tree).2.arena)
  | .node tag properties children, pass => by
      have hBelow := run_createAll children (pass.begun tag properties) pass.arena.fresh
      rw [create, Pass.create_node, run_bind, run_bind, run_bind, run_initialise]
      exact congrArg (fun below : Unit × Arena H => (pass.arena.fresh, below.2)) hBelow

theorem run_createAll : (trees : List (VirtualTree H)) → (pass : Pass H) → (parent : Handle) →
    (createAll parent trees).run pass.arena = ((), (Pass.createAll pass parent trees).arena)
  | [], pass, parent => by
      rw [createAll, Pass.createAll]
      rfl
  | tree :: rest, pass, parent => by
      rw [createAll, Pass.createAll_cons, run_bind, run_bind, run_create tree pass]
      exact run_createAll rest (pass.filled parent tree) parent

end

theorem run_disposeIfLive (live : Option Handle) (pass : Pass H) :
    (disposeIfLive live).run pass.arena = ((), (pass.disposeIfLive live).arena) := by
  cases live <;> rfl

theorem run_dropRest (olds : List (VirtualTree H)) (pass : Pass H) (parent : Handle) (index : Nat)
    (edits : Edits) : (dropRest parent index edits olds).run pass.arena =
      ((Pass.dropRest pass parent index edits olds).1,
        (Pass.dropRest pass parent index edits olds).2.arena) := by
  induction olds generalizing pass index edits with
  | nil => rfl
  | cons old olds ih =>
      rw [dropRest, Pass.dropRest, run_bind, run_bind]
      exact (congrArg (fun cleared : Unit × Arena H => (dropRest parent (index + 1) _ olds).run
        cleared.2) (run_disposeIfLive _ pass)).trans (ih _ _ _)

theorem run_createRest (news : List (VirtualTree H)) (pass : Pass H) (index : Nat)
    (edits : Edits) : (createRest index edits news).run pass.arena =
      ((Pass.createRest pass index edits news).1,
        (Pass.createRest pass index edits news).2.arena) := by
  induction news generalizing pass index edits with
  | nil => rfl
  | cons new news ih =>
      rw [createRest, Pass.createRest, run_bind, run_create new pass]
      exact ih _ _ _

theorem run_detachAll (indices : List Nat) (pass : Pass H) (parent : Handle) :
    (requestAll (indices.reverse.map (Request.removeChildAt parent ·))).run pass.arena =
      ((), (pass.detachAll parent indices).arena) := by
  rw [run_requestAll, List.foldl_map, List.foldl_reverse]
  induction indices with
  | nil => rfl
  | cons index rest ih =>
      rw [List.foldr_cons, Prod.mk.injEq, eq_self, true_and] at *
      rw [ih, Pass.detachAll]
      simp only [Arena.answer, Pass.remark]
      unfold Arena.removeChildAt
      split <;> rfl

theorem run_attachAll (children : List Handle) (pass : Pass H) (parent : Handle) :
    (requestAll (children.map (Request.addChild parent ·))).run pass.arena =
      ((), (pass.attachAll parent children).arena) := by
  rw [run_requestAll, List.foldl_map]
  induction children generalizing pass with
  | nil => rfl
  | cons child rest ih => exact ih (pass.appended parent child)

theorem run_applyEdits (edits : Edits) (pass : Pass H) (parent : Handle) :
    (applyEdits parent edits).run pass.arena = ((), (pass.applyEdits parent edits).arena) := by
  rw [applyEdits, run_bind, run_detachAll edits.detach pass]
  exact run_attachAll edits.attach (pass.detachAll parent edits.detach) parent

mutual

/-- **A pass over a position is the run of its script.** -/
theorem run_meet : (new : VirtualTree H) → (pass : Pass H) → (live : Option Handle) →
    (old : VirtualTree H) → (meet live old new).run pass.arena =
      ((Pass.meet pass live old new).1, (Pass.meet pass live old new).2.arena)
  | .node tag fresh news, pass, none, old => by
      rw [meet, Pass.meet_none]
      exact run_create (.node tag fresh news) pass
  | .node tag fresh news, pass, some id, old => by
      by_cases hTag : old.tag = tag
      · have hBelow := run_meetAll news (pass.patched id fresh) id 0 .none old.children
        rw [Pass.meet_of_eq pass id hTag, meet]
        simp only [ne_eq, hTag, not_true, if_false]
        rw [run_bind, run_patch, run_bind]
        have hArena : Pass.patch pass.arena id fresh = (pass.patched id fresh).arena := rfl
        simp only [hArena, hBelow, run_bind, run_applyEdits, run_pure]
      · have hTag' : old.tag ≠ (VirtualTree.node tag fresh news).tag := hTag
        rw [Pass.meet_of_ne pass id hTag', meet]
        simp only [ne_eq, hTag, not_false_eq_true, if_true]
        exact run_create (.node tag fresh news) (pass.replaced id old.tag tag)

theorem run_meetAll : (news : List (VirtualTree H)) → (pass : Pass H) → (parent : Handle) →
    (index : Nat) → (edits : Edits) → (olds : List (VirtualTree H)) →
    (meetAll parent index edits olds news).run pass.arena =
      ((Pass.meetAll pass parent index edits olds news).1,
        (Pass.meetAll pass parent index edits olds news).2.arena)
  | [], pass, parent, index, edits, olds => by
      rw [meetAll, Pass.meetAll]
      exact run_dropRest olds pass parent index edits
  | new :: news, pass, parent, index, edits, [] => by
      rw [meetAll, Pass.meetAll]
      exact run_createRest (new :: news) pass index edits
  | new :: news, pass, parent, index, edits, old :: olds => by
      rw [meetAll, Pass.meetAll, run_bind, run_bind]
      have hFirst := run_meet new pass (pass.arena.childAt? parent index) old
      refine (congrArg (fun first : Handle × Arena H => (meetAll parent (index + 1)
        (edits.settle index (pass.arena.childAt? parent index) (some first.1)) olds news).run
          first.2) hFirst).trans ?_
      exact run_meetAll news _ parent (index + 1) _ olds

end

/-- **A pass is the run of its script.** -/
theorem run_reconcile (pass : Pass H) (live : Option Handle) (old new : Option (VirtualTree H)) :
    (reconcile live old new).run pass.arena =
      ((pass.reconcile live old new).1, (pass.reconcile live old new).2.arena) := by
  have hCleared := run_disposeIfLive live pass
  cases new with
  | none =>
      have hRun : (reconcile live old none : Script H (Option Handle)).run pass.arena =
          (none, ((disposeIfLive live).run pass.arena).2) := by
        rw [reconcile, run_bind, run_pure]
      rw [hRun, hCleared]
      cases old <;> rfl
  | some new =>
      cases old with
      | none =>
          have hMade := run_create new (pass.disposeIfLive live)
          rw [reconcile, run_bind, hCleared, run_map, hMade]
          rfl
      | some old =>
          rw [reconcile, run_map, run_meet new pass live old]
          rfl

end Script

end LiveMarkup.Live
