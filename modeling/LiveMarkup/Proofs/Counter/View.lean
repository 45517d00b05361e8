import LiveMarkup.Counter
import LiveMarkup.Proofs.Live.Alone
import LiveMarkup.Proofs.Text.Plain

/-!
# The view of the counter

What the virtual trees of a counter have in common, and what one of them looks
like. A position has the same names in all of them: the heading, the only node
with a weight, is always the fourth child where it is there at all, so the live
nodes of the rows are never asked to forget a weight.

## Main results

* `names_of_child` — a child of a view has its names whatever the state is.
* `repaints_view` — **a view leaves nothing of an earlier one to be seen.**
* `lines_view` — the lines of a view that has just been mounted.
* `count_view` — the number of its nodes.
-/

namespace LiveMarkup

variable {H : Type}

/-! ## The names of properties -/

namespace Properties

/-- The properties have values under these names and handlers under those, and
nothing else. -/
structure Names (properties : Properties H) (values events : List String) : Prop where
  values : ∀ name, (properties.plain? name).isSome = true ↔ name ∈ values
  events : ∀ name, (∃ handler, properties.get? name = some (.handler handler)) ↔ name ∈ events

variable {properties : Properties H} {values events : List String} {name : String}

theorem names_empty : (empty : Properties H).Names [] [] where
  values := fun name => by simp [plain?]
  events := fun name => by simp

theorem Names.set_value (h : properties.Names values events) (hFresh : name ∉ events)
    {value : Value H} (hValue : value.isHandler = false) :
    (properties.set name value).Names (name :: values) events where
  values := fun other => by
    by_cases hName : other = name
    · simp [plain?, hName, hValue]
    · rw [plain?, get?_set_ne properties value hName, List.mem_cons, ← h.values other]
      simp [plain?, hName]
  events := fun other => by
    by_cases hName : other = name
    · subst hName
      rw [get?_set_self]
      simp only [hFresh, iff_false]
      rintro ⟨handler, hEq⟩
      rw [Option.some.inj hEq] at hValue
      cases hValue
    · rw [get?_set_ne properties value hName, h.events other]

theorem Names.set_handler (h : properties.Names values events) (hFresh : name ∉ values)
    (handler : H) : (properties.set name (.handler handler)).Names values (name :: events) where
  values := fun other => by
    by_cases hName : other = name
    · subst hName
      simp [plain?, hFresh, Value.isHandler]
    · rw [plain?, get?_set_ne properties _ hName, ← h.values other, plain?]
  events := fun other => by
    by_cases hName : other = name
    · simp [hName]
    · rw [get?_set_ne properties _ hName, List.mem_cons, ← h.events other]
      simp [hName]

/-- Properties with the same names cover one another. -/
theorem Names.covers {newer : Properties H} (h : properties.Names values events)
    (hNewer : newer.Names values events) : newer.Covers properties where
  values := fun name hSome => (hNewer.values name).mpr ((h.values name).mp hSome)
  handlers := fun name => (h.events name).trans (hNewer.events name).symm

end Properties

namespace Counter

open Live (LiveTree)

/-- The node above the history. -/
def heading : VirtualTree H :=
  (textBlock "History").set "FontWeight" (.text "Bold")

theorem names_textBlock (text : String) :
    (textBlock text : VirtualTree H).properties.Names ["Text"] [] :=
  Properties.names_empty.set_value (List.not_mem_nil) rfl

theorem names_heading : (heading : VirtualTree H).properties.Names ["FontWeight", "Text"] [] :=
  (names_textBlock "History").set_value (List.not_mem_nil) rfl

theorem names_button (caption : String) (handler : H) :
    (button caption handler).properties.Names ["Content"] ["click"] :=
  (Properties.names_empty.set_value (List.not_mem_nil) rfl).set_handler (by decide) handler

/-! ## The children of a view -/

/-- The children that are there only while the history is shown. -/
def shownPart (counter : Counter) : List (VirtualTree H) :=
  if counter.historyShown then heading :: counter.history.map textBlock else []

/-- The children of a view. -/
theorem children_view (handlerOf : Action → H) (counter : Counter) :
    (counter.view handlerOf).children =
      textBlock ("Count: " ++ toString counter.count) ::
        button "Increment" (handlerOf .increment) ::
        button "History" (handlerOf .toggleHistory) :: counter.shownPart := rfl

theorem mem_shownPart {counter : Counter} {index : Nat} {child : VirtualTree H}
    (h : (counter.shownPart)[index]? = some child) :
    (index = 0 ∧ child = heading) ∨ (index ≠ 0 ∧ ∃ text, child = textBlock text) := by
  rw [shownPart] at h
  split_ifs at h
  · cases index with
    | zero => exact .inl ⟨rfl, (Option.some.inj h).symm⟩
    | succ index =>
        rw [List.getElem?_cons_succ, List.getElem?_map, Option.map_eq_some_iff] at h
        obtain ⟨text, -, hChild⟩ := h
        exact .inr ⟨index.succ_ne_zero, text, hChild.symm⟩
  · simp at h

/-- The names of the values at the child with an index. -/
def valuesOf : Nat → List String
  | 1 => ["Content"]
  | 2 => ["Content"]
  | 3 => ["FontWeight", "Text"]
  | _ => ["Text"]

/-- The events at the child with an index. -/
def eventsOf : Nat → List String
  | 1 => ["click"]
  | 2 => ["click"]
  | _ => []

/-- A child of a view has the names of its index, and no children of its own. -/
theorem names_of_child {handlerOf : Action → H} {counter : Counter} {index : Nat}
    {child : VirtualTree H} (h : (counter.view handlerOf).children[index]? = some child) :
    child.properties.Names (valuesOf index) (eventsOf index) ∧ child.children = [] := by
  rw [children_view] at h
  match index, h with
  | 0, h =>
      obtain rfl := Option.some.inj h
      exact ⟨names_textBlock _, rfl⟩
  | 1, h =>
      obtain rfl := Option.some.inj h
      exact ⟨names_button _ _, rfl⟩
  | 2, h =>
      obtain rfl := Option.some.inj h
      exact ⟨names_button _ _, rfl⟩
  | index + 3, h =>
      rcases mem_shownPart h with ⟨rfl, rfl⟩ | ⟨hIndex, text, rfl⟩
      · exact ⟨names_heading, rfl⟩
      · obtain ⟨row, rfl⟩ := Nat.exists_eq_succ_of_ne_zero hIndex
        exact ⟨names_textBlock text, rfl⟩

/-- **A view leaves nothing of an earlier one to be seen**, whatever the two states
are and whatever has been performed in between. -/
theorem repaints_view (handlerOf handlerOf' : Action → H) (counter counter' : Counter) :
    (counter.view handlerOf).Repaints (counter'.view handlerOf') := by
  intro path before after hBefore hAfter _
  match path with
  | [] =>
      obtain rfl := Option.some.inj hBefore
      obtain rfl := Option.some.inj hAfter
      exact Properties.Covers.refl _
  | [index] =>
      rw [VirtualTree.at?, Option.bind_eq_some_iff] at hBefore hAfter
      obtain ⟨child, hChild, hHere⟩ := hBefore
      obtain ⟨child', hChild', hHere'⟩ := hAfter
      obtain rfl := Option.some.inj hHere
      obtain rfl := Option.some.inj hHere'
      exact (names_of_child hChild).1.covers (names_of_child hChild').1
  | index :: below :: rest =>
      rw [VirtualTree.at?, Option.bind_eq_some_iff] at hBefore
      obtain ⟨child, hChild, hBelow⟩ := hBefore
      rw [VirtualTree.at?, (names_of_child hChild).2] at hBelow
      cases hBelow

/-! ## What a view looks like -/

/-- The line of a text that is shown below the panel. -/
def textLine (text : String) : String :=
  "  TextBlock Text=Text(\"" ++ text ++ "\")\n"

/-- The counter that has counted from zero to `count`. -/
def reached (count : Nat) (historyShown : Bool) : Counter where
  count := count
  historyShown := historyShown
  history := (List.range' 1 count).map fun value => "reached " ++ toString value

/-- The lines of the view that shows a count, with a row for each of the values
reached while the history is shown. -/
def snapshotLines (count : Nat) (historyShown : Bool) : List String :=
  ["StackPanel Orientation=Text(\"Vertical\")\n",
    textLine ("Count: " ++ toString count),
    "  Button Content=Text(\"Increment\") on:click\n",
    "  Button Content=Text(\"History\") on:click\n"]
  ++ if historyShown then
      "  TextBlock FontWeight=Text(\"Bold\") Text=Text(\"History\")\n" ::
        (List.range' 1 count).map fun value => textLine ("reached " ++ toString value)
    else []

/-- A text that needs no escapes is shown between its quotes. -/
theorem debug_text {text : String} (hText : Text.IsPlain text) :
    (Value.text text : Value H).debug = "Text(\"" ++ text ++ "\")" := by
  rw [Value.debug, Text.debug_plain hText]
  apply String.toList_injective
  simp

/-- The line of a node without children that has just been mounted below a panel, from
its properties by ascending name. -/
theorem lines_leaf (next : Nat) (tag : String) (properties : Properties H)
    {entries : List (String × Value H)} (hSorted : properties.sorted = entries) :
    (LiveTree.mount next (.node tag properties [])).lines 1 =
      ["  " ++ tag
        ++ String.join ((entries.filter (!·.2.isHandler)).map
          fun (name, value) => " " ++ name ++ "=" ++ value.debug)
        ++ String.join ((Properties.handlersOf entries).map fun (event, _) => " on:" ++ event)
        ++ "\n"] := by
  rw [LiveTree.lines_mount, Properties.handlers, hSorted]
  rfl

theorem lines_textBlock (next : Nat) {text : String} (hText : Text.IsPlain text) :
    (LiveTree.mount next (textBlock text : VirtualTree H)).lines 1 = [textLine text] := by
  have hSorted : (textBlock text : VirtualTree H).properties.sorted = [("Text", .text text)] := rfl
  refine (lines_leaf next "TextBlock" _ hSorted).trans (congrArg (fun line => [line]) ?_)
  unfold textLine
  apply String.toList_injective
  simp [Properties.handlersOf, Value.isHandler, Value.asHandler?, debug_text hText]

theorem lines_button (next : Nat) {caption : String} (hCaption : Text.IsPlain caption)
    (handler : H) : (LiveTree.mount next (button caption handler)).lines 1 =
      ["  Button Content=Text(\"" ++ caption ++ "\") on:click\n"] := by
  have hOrder : "Content" ≤ "click" := by decide
  have hSorted : (button caption handler).properties.sorted =
      [("Content", .text caption), ("click", .handler handler)] := if_pos hOrder
  refine (lines_leaf next "Button" _ hSorted).trans (congrArg (fun line => [line]) ?_)
  apply String.toList_injective
  simp [Properties.handlersOf, Value.isHandler, Value.asHandler?, debug_text hCaption]

theorem lines_heading (next : Nat) :
    (LiveTree.mount next (heading : VirtualTree H)).lines 1 =
      ["  TextBlock FontWeight=Text(\"Bold\") Text=Text(\"History\")\n"] := by
  have hBold : Text.IsPlain "Bold" := Text.isPlain_of_common (by decide)
  have hHistory : Text.IsPlain "History" := Text.isPlain_of_common (by decide)
  have hOrder : ¬ "Text" ≤ "FontWeight" := by decide
  have hSorted : (heading : VirtualTree H).properties.sorted =
      [("FontWeight", .text "Bold"), ("Text", .text "History")] := if_neg hOrder
  refine (lines_leaf next "TextBlock" _ hSorted).trans (congrArg (fun line => [line]) ?_)
  apply String.toList_injective
  simp [Properties.handlersOf, Value.isHandler, Value.asHandler?, debug_text hBold,
    debug_text hHistory]

/-- The rows of a history have a line each, in their order. -/
theorem lines_rows (next : Nat) (texts : List String) (hTexts : ∀ text ∈ texts, Text.IsPlain text) :
    LiveTree.linesAll 1 (LiveTree.mountAll next (texts.map textBlock : List (VirtualTree H))) =
      texts.map textLine := by
  induction texts generalizing next with
  | nil => rfl
  | cons text rest ih =>
      have hRest := ih (next + (textBlock text : VirtualTree H).count)
        fun other hMem => hTexts other (List.mem_cons_of_mem text hMem)
      rw [List.map_cons, LiveTree.mountAll, LiveTree.linesAll, hRest,
        lines_textBlock next (hTexts text List.mem_cons_self)]
      rfl

theorem isPlain_of_mem_history {count : Nat} {historyShown : Bool} {text : String}
    (h : text ∈ (reached count historyShown).history) : Text.IsPlain text := by
  obtain ⟨value, -, rfl⟩ := List.mem_map.mp h
  have hFront : Text.IsPlain "reached " := Text.isPlain_of_common (by decide)
  exact hFront.append (Text.isPlain_toString value)

theorem lines_shownPart (next count : Nat) (historyShown : Bool) :
    LiveTree.linesAll 1
        (LiveTree.mountAll next ((reached count historyShown).shownPart : List (VirtualTree H))) =
      if historyShown then
        "  TextBlock FontWeight=Text(\"Bold\") Text=Text(\"History\")\n" ::
          (List.range' 1 count).map fun value => textLine ("reached " ++ toString value)
      else [] := by
  cases historyShown with
  | false => rfl
  | true =>
      have hRows := lines_rows (next + (heading : VirtualTree H).count) (reached count true).history
        (H := H) fun text hMem => isPlain_of_mem_history hMem
      have hShown : ((reached count true).shownPart : List (VirtualTree H)) =
          heading :: (reached count true).history.map textBlock := rfl
      rw [hShown, LiveTree.mountAll, LiveTree.linesAll, lines_heading, hRows, if_pos rfl, reached,
        List.map_map, List.singleton_append]
      rfl

theorem lines_panel (next : Nat) (children : List (VirtualTree H)) :
    (LiveTree.mount next (.node "StackPanel" (Properties.empty.set "Orientation" (.text "Vertical"))
        children)).lines 0 =
      "StackPanel Orientation=Text(\"Vertical\")\n" ::
        LiveTree.linesAll 1 (LiveTree.mountAll (next + 1) children) := by
  have hVertical : Text.IsPlain "Vertical" := Text.isPlain_of_common (by decide)
  have hSorted : (Properties.empty.set "Orientation" (.text "Vertical") : Properties H).sorted =
      [("Orientation", .text "Vertical")] := rfl
  rw [LiveTree.lines_mount, Properties.handlers, hSorted]
  refine congrArg (· :: LiveTree.linesAll 1 (LiveTree.mountAll (next + 1) children)) ?_
  apply String.toList_injective
  simp [Properties.handlersOf, Value.isHandler, Value.asHandler?, debug_text hVertical]

/-- **The lines of a view that has just been mounted**, whatever its handlers are. -/
theorem lines_view (handlerOf : Action → H) (next count : Nat) (historyShown : Bool) :
    (LiveTree.mount next ((reached count historyShown).view handlerOf)).lines 0 =
      snapshotLines count historyShown := by
  have hCount : Text.IsPlain ("Count: " ++ toString count) :=
    (Text.isPlain_of_common (by decide)).append (Text.isPlain_toString count)
  have hIncrement : Text.IsPlain "Increment" := Text.isPlain_of_common (by decide)
  have hHistory : Text.IsPlain "History" := Text.isPlain_of_common (by decide)
  have hView : (reached count historyShown).view handlerOf = .node "StackPanel"
      (Properties.empty.set "Orientation" (.text "Vertical"))
      (textBlock ("Count: " ++ toString count) :: button "Increment" (handlerOf .increment) ::
        button "History" (handlerOf .toggleHistory) ::
        (reached count historyShown).shownPart) := rfl
  rw [hView, lines_panel]
  simp only [LiveTree.mountAll, LiveTree.linesAll, lines_textBlock _ hCount,
    lines_button _ hIncrement, lines_button _ hHistory, lines_shownPart]
  rfl

/-! ## The number of nodes -/

theorem countAll_rows (texts : List String) :
    VirtualTree.countAll (texts.map textBlock : List (VirtualTree H)) = texts.length := by
  induction texts with
  | nil => rfl
  | cons text rest ih =>
      have hOne : (textBlock text : VirtualTree H).count = 1 := rfl
      rw [List.map_cons, VirtualTree.countAll, ih, hOne, List.length_cons]
      omega

/-- **The number of nodes of a view**: four, and while the history is shown the
heading and a row for each value. -/
theorem count_view (handlerOf : Action → H) (counter : Counter) :
    (counter.view handlerOf).count =
      4 + if counter.historyShown then 1 + counter.history.length else 0 := by
  have hFour : (counter.view handlerOf).count =
      1 + (1 + (1 + (1 + VirtualTree.countAll (counter.shownPart : List (VirtualTree H))))) := rfl
  rw [hFour, shownPart]
  split_ifs with hShown
  · have hHeading : (heading : VirtualTree H).count = 1 := rfl
    rw [VirtualTree.countAll, hHeading, countAll_rows]
    omega
  · rfl

end Counter

end LiveMarkup
