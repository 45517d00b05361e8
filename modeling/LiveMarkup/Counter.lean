import LiveMarkup.Live.Binding

/-!
# A counter with a history

The smallest view that shows everything at work: a label that changes, two buttons with handlers, a
heading that comes and goes, and a row for every value that the counter has reached.
-/

namespace LiveMarkup

/-- The state behind the view. -/
structure Counter where
  count : Nat
  historyShown : Bool
  /-- A line for every value reached, the first one first. -/
  history : List String
  deriving DecidableEq, Repr

namespace Counter

/-- A counter at zero, with its history hidden. -/
def start : Counter := ⟨0, false, []⟩

instance : Inhabited Counter := ⟨start⟩

/-- What the two buttons do. -/
inductive Action where
  | increment
  | toggleHistory
  deriving DecidableEq, Repr

/-- Counts one up and notes the value reached. -/
def increment (counter : Counter) : Counter :=
  { counter with
    count := counter.count + 1
    history := counter.history ++ ["reached " ++ toString (counter.count + 1)] }

/-- Shows the history, or hides it. -/
def toggleHistory (counter : Counter) : Counter :=
  { counter with historyShown := !counter.historyShown }

/-- The state after an action. -/
def perform (counter : Counter) : Action → Counter
  | .increment => counter.increment
  | .toggleHistory => counter.toggleHistory

variable {H : Type}

/-- A node that shows one line of text. -/
def textBlock (text : String) : VirtualTree H :=
  (VirtualTree.leaf "TextBlock").set "Text" (.text text)

/-- A button with its caption and what a click runs. -/
def button (caption : String) (handler : H) : VirtualTree H :=
  ((VirtualTree.leaf "Button").set "Content" (.text caption)).set "click" (.handler handler)

/-- The view of the state, given the handler that performs each action. The heading and the rows are
there only while the history is shown. -/
def view (handlerOf : Action → H) (counter : Counter) : VirtualTree H :=
  .node "StackPanel" (Properties.empty.set "Orientation" (.text "Vertical"))
    ([textBlock ("Count: " ++ toString counter.count),
      button "Increment" (handlerOf .increment),
      button "History" (handlerOf .toggleHistory)]
      ++ if counter.historyShown then
          (textBlock "History").set "FontWeight" (.text "Bold") :: counter.history.map textBlock
        else [])

end Counter

end LiveMarkup
