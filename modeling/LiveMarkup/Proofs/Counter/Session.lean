import LiveMarkup.Proofs.Counter.Markup
import LiveMarkup.Proofs.Counter.View

/-!
# A counter in use

A counter whose view is bound to an arena of its own, from the first build on:
buttons are clicked, and the view is rebuilt, in any order and number. A click
runs the handlers that the toolkit has at the button, and these are the ones that
were captured by the build that constructed it.

## Main results

* `Follows.clicked`, `Follows.rebuild` — what a click does, and what a rebuild preserves.
* `follows_run` — the state after a session is told by the numbers of clicks.
* `run_rebuild` — **what is to be seen after a rebuild**, and what a click does.
-/

namespace LiveMarkup.Counter

open Live (Handle Host)

/-- The buttons of the view. -/
inductive Button where
  | increment
  | history
  deriving DecidableEq, Repr

/-- What is written on a button. -/
def Button.caption : Button → String
  | .increment => "Increment"
  | .history => "History"

/-- What a button is for. -/
def Button.action : Button → Action
  | .increment => .increment
  | .history => .toggleHistory

/-- What a user and a program do with the view. -/
inductive Step where
  | click (button : Button)
  | rebuild
  deriving DecidableEq, Repr

/-- A handler: the action that it performs, and the number of the build that captured it. What is
captured is a clone of the counter, and all clones share the cells that hold its state. So
what a handler does is told by its action, and the state of a session is one; the number
tells handlers of different builds apart, which do the same. -/
structure Handler where
  build : Nat
  action : Action
  deriving DecidableEq, Repr

/-- A counter with its view and the arena of the view. -/
structure Session where
  counter : Counter
  /-- How often the view has been built. -/
  builds : Nat
  host : Host Handler

namespace Session

/-- The handlers that the next build captures. -/
def captured (session : Session) (action : Action) : Handler :=
  ⟨session.builds, action⟩

/-- The tree that the view builds now. -/
def built (session : Session) : VirtualTree Handler :=
  session.counter.view session.captured

/-- The session after a rebuild. -/
def rebuild (session : Session) : Session where
  counter := session.counter
  builds := session.builds + 1
  host := session.host.rebuild session.built

/-- A counter at zero whose view has not been built. -/
def unmounted : Session := ⟨.start, 0, ⟨.unmounted, .empty⟩⟩

/-- A counter at zero whose view has been built once. -/
def mounted : Session := unmounted.rebuild

/-- The first node below the root that has the caption. -/
def button? (session : Session) (caption : String) : Option Handle :=
  session.host.binding.retained.root.bind fun root =>
    (session.host.arena.children root).find? fun id =>
      session.host.arena.property? id "Content" = some (.text caption)

/-- The handlers that a click on a button runs. -/
def clicked (session : Session) (button : Button) : List Handler :=
  match session.button? button.caption with
  | some id => session.host.arena.fired id "click"
  | none => []

/-- The session after one step. -/
def step (session : Session) : Step → Session
  | .click button =>
    { session with
      counter := (session.clicked button).foldl
        (fun counter handler => counter.perform handler.action) session.counter }
  | .rebuild => session.rebuild

/-- The session after some steps. -/
def run (session : Session) (steps : List Step) : Session :=
  steps.foldl step session

end Session

/-! ## The trees of a session -/

/-- A tree that the view has built. -/
def IsView (tree : VirtualTree Handler) : Prop :=
  ∃ handlerOf counter, tree = view handlerOf counter

/-- The tree that is mounted. -/
def firstView : VirtualTree Handler :=
  start.view fun action => ⟨0, action⟩

/-- Where a button stands. -/
def Button.place : Button → Nat
  | .increment => 1
  | .history => 2

/-- The positions that every view has. -/
def steadyPlaces : List (List Nat) := [[], [0], [1], [2]]

theorem isChain_repaints {trees : List (VirtualTree Handler)} (h : ∀ tree ∈ trees, IsView tree) :
    trees.IsChain VirtualTree.Repaints := by
  rw [List.isChain_iff_forall_rel_of_append_cons_cons]
  intro old new front back hEq
  obtain ⟨handlerOf, counter, rfl⟩ := h old (by rw [hEq]; simp)
  obtain ⟨handlerOf', counter', rfl⟩ := h new (by rw [hEq]; simp)
  exact repaints_view handlerOf handlerOf' counter counter'

theorem tagsTo_view {tree : VirtualTree Handler} (h : IsView tree) {path : List Nat}
    (hPath : path ∈ steadyPlaces) : tree.tagsTo path = firstView.tagsTo path := by
  obtain ⟨handlerOf, counter, rfl⟩ := h
  simp only [steadyPlaces, List.mem_cons, List.not_mem_nil, or_false] at hPath
  rcases hPath with rfl | rfl | rfl | rfl <;> rfl

/-- What stands at a place below the root shows under `Content`, if it has one. -/
def captionAt : Nat → Option (Value Handler)
  | 1 => some (.text "Increment")
  | 2 => some (.text "History")
  | _ => none

theorem content_view {tree : VirtualTree Handler} (h : IsView tree) {index : Nat}
    (hIndex : [index] ∈ steadyPlaces) :
    ∃ child, tree.at? [index] = some child ∧
      child.properties.plain? "Content" = captionAt index := by
  obtain ⟨handlerOf, counter, rfl⟩ := h
  simp only [steadyPlaces, List.mem_cons, List.not_mem_nil, or_false, List.cons.injEq,
    and_true, reduceCtorEq, false_or] at hIndex
  rcases hIndex with rfl | rfl | rfl <;> exact ⟨_, rfl, rfl⟩

/-! ## The live nodes of a session -/

theorem exists_children {host : Host Handler} {label first second : Handle}
    (hLabel : host.at? [0] = some label) (hFirst : host.at? [1] = some first)
    (hSecond : host.at? [2] = some second) :
    ∃ root rest, host.binding.retained.root = some root ∧
      host.arena.children root = label :: first :: second :: rest := by
  rw [Host.at?, Option.bind_eq_some_iff] at hLabel hFirst hSecond
  obtain ⟨root, hRoot, hLabel⟩ := hLabel
  obtain ⟨root', hRoot', hFirst⟩ := hFirst
  obtain ⟨root'', hRoot'', hSecond⟩ := hSecond
  obtain rfl := Option.some.inj (hRoot.symm.trans hRoot')
  obtain rfl := Option.some.inj (hRoot.symm.trans hRoot'')
  have hAt : ∀ {index id}, host.arena.at? [index] root = some id →
      (host.arena.children root)[index]? = some id := by
    intro index id h
    rw [Live.Arena.at?, Option.bind_eq_some_iff] at h
    obtain ⟨child, hChild, hHere⟩ := h
    exact hChild.trans hHere
  have hLabelAt := hAt hLabel
  have hFirstAt := hAt hFirst
  have hSecondAt := hAt hSecond
  rcases hList : host.arena.children root with _ | ⟨here, _ | ⟨next, _ | ⟨last, rest⟩⟩⟩
  · simp [hList] at hLabelAt
  · simp [hList] at hFirstAt
  · simp [hList] at hSecondAt
  · simp only [hList, List.getElem?_cons_zero, List.getElem?_cons_succ,
      Option.some.injEq] at hLabelAt hFirstAt hSecondAt
    exact ⟨root, rest, hRoot, by rw [hList, hLabelAt, hFirstAt, hSecondAt]⟩

section Live

variable {later : List (VirtualTree Handler)} (hViews : ∀ tree ∈ later, IsView tree)

include hViews

theorem isView_of_mem {tree : VirtualTree Handler} (hMem : tree ∈ firstView :: later) :
    IsView tree := by
  rcases List.mem_cons.mp hMem with rfl | hMem
  · exact ⟨_, _, rfl⟩
  · exact hViews tree hMem

/-- The root, the label and the buttons are the nodes that were mounted, and a click on
them runs what was captured then. -/
theorem exists_kept_place {path : List Nat} (hPath : path ∈ steadyPlaces)
    {here : VirtualTree Handler} (hHere : firstView.at? path = some here) :
    ∃ id, Session.mounted.host.at? path = some id ∧
      (Host.after .empty (firstView :: later)).at? path = some id ∧
      ∀ event, (Host.after .empty (firstView :: later)).arena.fired id event =
        ((here.properties.get? event).bind Value.asHandler?).toList :=
  Host.exists_kept .empty firstView later hHere fun tree hMem => tagsTo_view (hViews tree hMem) hPath

theorem content_after {index : Nat} (hIndex : [index] ∈ steadyPlaces) {id : Handle}
    (hId : (Host.after .empty (firstView :: later)).at? [index] = some id) :
    (Host.after .empty (firstView :: later)).arena.property? id "Content" = captionAt index := by
  obtain ⟨front, last, hSplit⟩ : ∃ front last, firstView :: later = front ++ [last] :=
    ⟨_, _, (List.dropLast_append_getLast (List.cons_ne_nil firstView later)).symm⟩
  have hLast : last ∈ firstView :: later := by
    rw [hSplit]
    exact List.mem_append_right front List.mem_cons_self
  obtain ⟨child, hChild, hContent⟩ := content_view (isView_of_mem hViews hLast) hIndex
  have hChain := isChain_repaints fun tree hMem => isView_of_mem hViews hMem
  rw [hSplit] at hChain hId ⊢
  rw [Host.property?_after .empty front hChain hChild hId, hContent]

/-- A button is found by its caption at its place, and a click on it runs the handler
that the first build captured. -/
theorem exists_button {session : Session}
    (hHost : session.host = Host.after .empty (firstView :: later)) (button : Button) :
    ∃ id, session.host.at? [button.place] = some id ∧
      session.button? button.caption = some id ∧
      session.host.arena.fired id "click" = [⟨0, button.action⟩] := by
  have hLabelPlace : [0] ∈ steadyPlaces := by decide
  have hFirstPlace : [1] ∈ steadyPlaces := by decide
  have hSecondPlace : [2] ∈ steadyPlaces := by decide
  obtain ⟨label, -, hLabel, -⟩ := exists_kept_place hViews hLabelPlace rfl
  obtain ⟨first, -, hFirst, hFirstFired⟩ := exists_kept_place hViews hFirstPlace rfl
  obtain ⟨second, -, hSecond, hSecondFired⟩ := exists_kept_place hViews hSecondPlace rfl
  have hLabelContent := content_after hViews hLabelPlace hLabel
  have hFirstContent := content_after hViews hFirstPlace hFirst
  have hSecondContent := content_after hViews hSecondPlace hSecond
  obtain ⟨root, rest, hRoot, hChildren⟩ := exists_children hLabel hFirst hSecond
  rw [Session.button?, hHost, hRoot, Option.bind_some, hChildren]
  cases button with
  | increment =>
      refine ⟨first, hFirst, ?_, hFirstFired "click"⟩
      simp [hLabelContent, hFirstContent, captionAt, Button.caption]
  | history =>
      refine ⟨second, hSecond, ?_, hSecondFired "click"⟩
      simp [hLabelContent, hFirstContent, hSecondContent, captionAt,
        Button.caption]

end Live

/-! ## Steps and runs -/

/-- What is known of a session in which the buttons have been clicked so many times. -/
structure Follows (session : Session) (increments toggles : Nat) : Prop where
  counter : session.counter = reached increments (toggles % 2 == 1)
  host : ∃ later, (∀ tree ∈ later, IsView tree) ∧
    session.host = Host.after .empty (firstView :: later)

theorem increment_reached (count : Nat) (historyShown : Bool) :
    (reached count historyShown).increment = reached (count + 1) historyShown := by
  rw [reached, reached, increment, List.range'_1_concat, List.map_append, Nat.add_comm 1 count]
  rfl

theorem toggleHistory_reached (count toggles : Nat) :
    (reached count (toggles % 2 == 1)).toggleHistory =
      reached count ((toggles + 1) % 2 == 1) := by
  have hFlip : (!(toggles % 2 == 1)) = ((toggles + 1) % 2 == 1) := by
    rcases Nat.mod_two_eq_zero_or_one toggles with h | h <;> simp [Nat.add_mod, h]
  rw [toggleHistory, ← hFlip]
  rfl

theorem follows_mounted : Follows Session.mounted 0 0 where
  counter := rfl
  host := ⟨[], List.forall_mem_nil _, rfl⟩

namespace Follows

variable {session : Session} {increments toggles : Nat}

/-- A click runs one handler, the one that the first build captured. -/
theorem clicked (h : Follows session increments toggles) (button : Button) :
    session.clicked button = [⟨0, button.action⟩] := by
  obtain ⟨later, hViews, hHost⟩ := h.host
  obtain ⟨id, -, hButton, hFired⟩ := exists_button hViews hHost button
  rw [Session.clicked, hButton]
  exact hFired

theorem increment (h : Follows session increments toggles) :
    Follows (session.step (.click .increment)) (increments + 1) toggles where
  counter := by
    rw [Session.step, h.clicked .increment, h.counter]
    exact increment_reached increments _
  host := h.host

theorem toggle (h : Follows session increments toggles) :
    Follows (session.step (.click .history)) increments (toggles + 1) where
  counter := by
    rw [Session.step, h.clicked .history, h.counter]
    exact toggleHistory_reached increments toggles
  host := h.host

/-- A rebuild adds the view of the state to the trees. -/
theorem host_rebuild (h : Follows session increments toggles) :
    ∃ later, (∀ tree ∈ later ++ [session.built], IsView tree) ∧
      session.rebuild.host = Host.after .empty (firstView :: later ++ [session.built]) := by
  obtain ⟨later, hViews, hHost⟩ := h.host
  refine ⟨later, ?_, ?_⟩
  · intro tree hMem
    rcases List.mem_append.mp hMem with hMem | hMem
    · exact hViews tree hMem
    · rw [List.mem_singleton.mp hMem]
      exact ⟨_, _, rfl⟩
  · rw [Session.rebuild, hHost, Host.after_concat]

theorem rebuild (h : Follows session increments toggles) :
    Follows session.rebuild increments toggles where
  counter := h.counter
  host := by
    obtain ⟨later, hViews, hHost⟩ := h.host_rebuild
    exact ⟨later ++ [session.built], hViews, hHost⟩

end Follows

/-- How often a button is clicked. -/
def clicks (button : Button) (steps : List Step) : Nat :=
  steps.count (.click button)

/-- **The state after a session is told by the numbers of clicks**, in whatever order
they come and whatever rebuilds come in between. -/
theorem follows_run (steps : List Step) :
    Follows (Session.mounted.run steps) (clicks .increment steps) (clicks .history steps) := by
  induction steps using List.reverseRecOn with
  | nil => exact follows_mounted
  | append_singleton front last ih =>
      rw [Session.run, List.foldl_append, clicks, clicks, List.count_append, List.count_append]
      cases last with
      | click button =>
          cases button with
          | increment => exact ih.increment
          | history => exact ih.toggle
      | rebuild => exact ih.rebuild

/-! ## What there is after a run -/

namespace Follows

variable {session : Session} {increments toggles : Nat}

/-- The root, the label and the buttons are the nodes that were mounted. -/
theorem at?_place (h : Follows session increments toggles) {path : List Nat}
    (hPath : path ∈ steadyPlaces) :
    ∃ id, Session.mounted.host.at? path = some id ∧ session.host.at? path = some id := by
  obtain ⟨later, hViews, hHost⟩ := h.host
  have hThere : (firstView.at? path).isSome = true := by
    revert path
    decide
  obtain ⟨here, hHere⟩ := Option.isSome_iff_exists.mp hThere
  obtain ⟨id, hMounted, hNow, -⟩ := exists_kept_place hViews hPath hHere
  rw [hHost]
  exact ⟨id, hMounted, hNow⟩

/-- The buttons that are found by their captions are the ones that were mounted. -/
theorem button?_caption (h : Follows session increments toggles) (button : Button) :
    ∃ id, Session.mounted.button? button.caption = some id ∧
      session.button? button.caption = some id := by
  obtain ⟨later, hViews, hHost⟩ := h.host
  have hPlace : [button.place] ∈ steadyPlaces := by cases button <;> decide
  obtain ⟨id, hMounted, hNow⟩ := h.at?_place hPlace
  have hMountedHost : Session.mounted.host = Host.after .empty [firstView] := rfl
  obtain ⟨mountedId, hMountedAt, hMountedButton, -⟩ :=
    exists_button (List.forall_mem_nil _) hMountedHost button
  obtain ⟨nowId, hNowAt, hNowButton, -⟩ := exists_button hViews hHost button
  obtain rfl := Option.some.inj (hMounted.symm.trans hMountedAt)
  obtain rfl := Option.some.inj (hNow.symm.trans hNowAt)
  exact ⟨id, hMountedButton, hNowButton⟩

/-- A rebuild shows the view of the state. -/
theorem snapshot_rebuild (h : Follows session increments toggles) :
    session.rebuild.host.snapshot =
      some (String.join (snapshotLines increments (toggles % 2 == 1))) := by
  obtain ⟨later, hViews, hHost⟩ := h.host_rebuild
  have hChain := isChain_repaints fun tree hMem => isView_of_mem hViews hMem
  rw [hHost, Host.snapshot_eq_lines .empty (firstView :: later) session.built hChain,
    Session.built, h.counter, lines_view]

theorem size_rebuild (h : Follows session increments toggles) :
    session.rebuild.host.arena.size =
      4 + if toggles % 2 == 1 then 1 + increments else 0 := by
  obtain ⟨later, -, hHost⟩ := h.host_rebuild
  rw [hHost, Host.size_after, Session.built, h.counter, count_view]
  simp [reached]

end Follows

/-- **A counter in use.** Whatever the buttons have been clicked and whenever the view
has been rebuilt, the next rebuild shows what the numbers of clicks say, in the nodes
that were mounted, and a click runs one handler, which the first build captured. The
trees are those that the compiled markup builds. -/
theorem run_rebuild (steps : List Step) :
    let count := clicks .increment steps
    let historyShown := clicks .history steps % 2 == 1
    let rebuilt := Session.mounted.run (steps ++ [.rebuild])
    (∃ program, IsMarkupProgram program ∧ ∀ session : Session,
      Template.runBody (interpretation session.captured session.counter) program =
        some session.built) ∧
      rebuilt.counter = reached count historyShown ∧
      rebuilt.host.snapshot = some (String.join (snapshotLines count historyShown)) ∧
      (∀ path ∈ steadyPlaces, ∃ id, Session.mounted.host.at? path = some id ∧
        rebuilt.host.at? path = some id) ∧
      (∀ button : Button, ∃ id, Session.mounted.button? button.caption = some id ∧
        rebuilt.button? button.caption = some id) ∧
      rebuilt.host.arena.size = 4 + (if historyShown then 1 + count else 0) ∧
      ∀ button, (Session.mounted.run steps).clicked button = [⟨0, button.action⟩] := by
  intro count historyShown rebuilt
  have hRun := follows_run steps
  have hRebuilt : rebuilt = (Session.mounted.run steps).rebuild := by
    simp only [rebuilt, Session.run, List.foldl_append]
    rfl
  obtain ⟨program, hProgram, hBuilds⟩ := exists_program
  rw [hRebuilt]
  exact ⟨⟨program, hProgram, fun session => hBuilds Handler session.captured session.counter⟩,
    hRun.rebuild.counter, hRun.snapshot_rebuild, fun path hPath => hRun.rebuild.at?_place hPath,
    hRun.rebuild.button?_caption, hRun.size_rebuild, hRun.clicked⟩

end LiveMarkup.Counter
