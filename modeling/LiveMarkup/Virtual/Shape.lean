/-!
# Shapes

The shape of a tree is the tree of its type tags. Two trees with equal shapes are congruent.
-/

namespace LiveMarkup

/-- The type tags at every position of a tree. -/
inductive Shape where
  | node (tag : String) (children : List Shape)
  deriving Repr, Inhabited

namespace Shape

/-- The tag at the root. -/
def tag : Shape → String
  | node tag _ => tag

/-- The shapes below the root. -/
def children : Shape → List Shape
  | node _ children => children

/-- The shape of a node without children. -/
def leaf (tag : String) : Shape := node tag []

mutual

/-- Whether two shapes are equal. -/
protected def decEq : (a b : Shape) → Decidable (a = b)
  | node tag children, node tag' children' =>
    if htag : tag = tag' then
      match Shape.decEqAll children children' with
      | isTrue h => isTrue (by rw [htag, h])
      | isFalse h => isFalse (by intro heq; cases heq; exact h rfl)
    else isFalse (by intro heq; cases heq; exact htag rfl)

/-- Whether two lists of shapes are equal. -/
protected def decEqAll : (as bs : List Shape) → Decidable (as = bs)
  | [], [] => isTrue rfl
  | [], _ :: _ => isFalse (by simp)
  | _ :: _, [] => isFalse (by simp)
  | a :: as, b :: bs =>
    match Shape.decEq a b with
    | isFalse h => isFalse (by intro heq; cases heq; exact h rfl)
    | isTrue h =>
      match Shape.decEqAll as bs with
      | isFalse h' => isFalse (by intro heq; cases heq; exact h' rfl)
      | isTrue h' => isTrue (by rw [h, h'])

end

instance : DecidableEq Shape := Shape.decEq

mutual

/-- The number of positions. -/
def count : Shape → Nat
  | node _ children => 1 + countAll children

/-- The number of positions in a list of shapes. -/
def countAll : List Shape → Nat
  | [] => 0
  | shape :: rest => count shape + countAll rest

end

end Shape

end LiveMarkup
