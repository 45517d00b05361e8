import LiveMarkup.Virtual.Properties
import LiveMarkup.Virtual.Shape

/-!
# Virtual trees

A virtual tree describes a user interface independently of any toolkit: a type tag, properties and
children. A view builds a fresh one from its state whenever the interface is to be refreshed.

## Main results

* `count_shape` — a tree and its shape have equally many positions.
-/

namespace LiveMarkup

/-- A virtual node with everything below it. -/
inductive VirtualTree (H : Type) where
  | node (tag : String) (properties : Properties H) (children : List (VirtualTree H))

namespace VirtualTree

variable {H : Type}

instance : Inhabited (VirtualTree H) := ⟨node "" .empty []⟩

/-- The type tag of the root. -/
def tag : VirtualTree H → String
  | node tag _ _ => tag

/-- The properties of the root. -/
def properties : VirtualTree H → Properties H
  | node _ properties _ => properties

/-- The trees below the root. -/
def children : VirtualTree H → List (VirtualTree H)
  | node _ _ children => children

/-- A node without properties and children. -/
def leaf (tag : String) : VirtualTree H := node tag .empty []

/-- The tree with a property of its root set. -/
def set : VirtualTree H → String → Value H → VirtualTree H
  | node tag properties children, name, value => node tag (properties.set name value) children

/-- The tree with another child behind the others. -/
def push : VirtualTree H → VirtualTree H → VirtualTree H
  | node tag properties children, child => node tag properties (children ++ [child])

mutual

/-- The number of nodes. -/
def count : VirtualTree H → Nat
  | node _ _ children => 1 + countAll children

/-- The number of nodes in a list of trees. -/
def countAll : List (VirtualTree H) → Nat
  | [] => 0
  | tree :: rest => count tree + countAll rest

end

mutual

/-- The type tags of the tree, without its properties. -/
def shape : VirtualTree H → Shape
  | node tag _ children => .node tag (shapeAll children)

/-- The shapes of a list of trees. -/
def shapeAll : List (VirtualTree H) → List Shape
  | [] => []
  | tree :: rest => shape tree :: shapeAll rest

end

mutual

/-- A tree and its shape have equally many positions. -/
theorem count_shape : (tree : VirtualTree H) → tree.shape.count = tree.count
  | node _ _ children => by
    simp only [shape, count, Shape.count, countAll_shapeAll children]

theorem countAll_shapeAll :
    (trees : List (VirtualTree H)) → Shape.countAll (shapeAll trees) = countAll trees
  | [] => rfl
  | tree :: rest => by
    simp only [shapeAll, countAll, Shape.countAll, count_shape tree, countAll_shapeAll rest]

end

mutual

/-- Whether two trees have the same tags, equal properties and equal children throughout. -/
def equals [DecidableEq H] : VirtualTree H → VirtualTree H → Bool
  | node tag properties children, node tag' properties' children' =>
    tag == tag' && properties.equals properties' && equalsAll children children'

/-- Whether two lists of trees are equal one by one. -/
def equalsAll [DecidableEq H] : List (VirtualTree H) → List (VirtualTree H) → Bool
  | [], [] => true
  | a :: as, b :: bs => equals a b && equalsAll as bs
  | _, _ => false

end

end VirtualTree

end LiveMarkup
