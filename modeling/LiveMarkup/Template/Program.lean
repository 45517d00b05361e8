import LiveMarkup.Template.Plan

/-!
# Programs that build views

A plan becomes a program of a small language of blocks: nodes are declared, given properties and
pushed into their parents. A child is built in a block of its own, which may depend on a condition or
be run for every item of a collection, and pushed at the end of it.

Nodes are held in variables, numbered from zero in document order. An element needs as many variables
as it has elements, itself included, so the numbers are known without running anything.
-/

namespace LiveMarkup.Template

/-- What a property is set to. -/
inductive Source where
  /-- A text. -/
  | text (value : String)
  /-- The value of an expression. -/
  | expression (code : String)
  /-- A handler that runs a statement. -/
  | handler (code : String)
  deriving DecidableEq, Repr

/-- What decides how often a block is run. -/
inductive Head where
  | once
  | when (condition : String)
  | each (loop : Loop)
  deriving DecidableEq, Repr

/-- A statement of a program. -/
inductive Statement where
  /-- Makes a bare node with the given tag. -/
  | declare (variableNumber : Nat) (tag : String)
  /-- Sets a property of a node. -/
  | set (variableNumber : Nat) (name : String) (source : Source)
  /-- Runs the body as often as the head says. -/
  | block (head : Head) (body : List Statement)
  /-- Appends a node to the children of another. -/
  | push (parent child : Nat)
  deriving Repr

/-- The name and the value of the property that an attribute sets. -/
def Binding.source : Binding → String × Source
  | .literal name value => (name, .text value)
  | .dynamic name expression => (name, .expression expression)
  | .event name statement => (name, .handler statement)

/-- The block that a child is built in. -/
def Head.ofDirective : Option Directive → Head
  | none => .once
  | some (.when condition) => .when condition
  | some (.each loop) => .each loop

namespace Plan

mutual

/-- Builds the element in variable `next`, and the elements in it in the variables behind. -/
def build (next : Nat) : Plan → List Statement
  | element tag classified children =>
    .declare next tag.name
      :: classified.bindings.map (fun b => .set next b.source.1 b.source.2)
      ++ buildAll next (next + 1) children

/-- Builds children of the node in variable `parent`, in the variables from `next` on. -/
def buildAll (parent next : Nat) : List Plan → List Statement
  | [] => []
  | plan :: rest =>
    .block (.ofDirective plan.classified.directive) (build next plan ++ [.push parent next])
      :: buildAll parent (next + plan.size) rest

end

/-- The program of a whole view, which leaves its root in variable zero. A directive on the root has
nothing to depend on and is left out. -/
def program (plan : Plan) : List Statement :=
  plan.build 0

end Plan

end LiveMarkup.Template
