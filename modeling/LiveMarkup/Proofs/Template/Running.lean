import LiveMarkup.Template.Rendering
import LiveMarkup.Virtual.Tree

/-!
# Running programs

The block language of generated code, given a meaning. Names stand in a scope,
the innermost first: a name stands for a virtual tree under construction, for
the item of a loop, or for a tree that has been moved away. A statement looks
its names up as they are written, so an item may hide a variable.

What the code copies from the markup is not looked into. An `Interpretation`
says what it means, given the items in scope.

A statement that finds no tree behind a name has no result.

## Main results

* `tree?_cons_self`, `tree?_cons_ne`, `assign_cons_self`, `assign_cons_ne` — a
  name is looked up in its innermost place.
* `leave_append` — leaving a block takes what was introduced in it.
* `variableName_inj` — variables with different numbers have different names.
-/

namespace LiveMarkup.Template

variable {I H : Type}

/-- The items of the loops around a place with the names that they are bound
to, the innermost first. -/
abbrev Items (I : Type) := List (String × I)

/-- What the texts mean that are copied from the markup. -/
structure Interpretation (I H : Type) where
  /-- The name that the item of a loop stands for. It is the item as it is written wherever
  that is a word and nothing else; the plain reading takes the mark of a raw word and
  comments off besides (`Interpretation.IsPlain`). -/
  itemName : String → String
  /-- Whether a condition holds. -/
  condition : Items I → String → Bool
  /-- The items that a loop walks through. -/
  collection : Items I → String → List I
  /-- The value of an expression. -/
  value : Items I → String → Value H
  /-- The handler that runs a statement. -/
  handler : Items I → String → H

/-- What a name stands for. -/
inductive Meant (I H : Type) where
  | tree (tree : VirtualTree H)
  | item (item : I)
  | moved

/-- The tree that is meant, if one is. -/
def Meant.tree? : Meant I H → Option (VirtualTree H)
  | .tree built => some built
  | _ => none

/-- Names with what they stand for, the innermost first. -/
abbrev Scope (I H : Type) := List (String × Meant I H)

namespace Scope

/-- The items in scope. -/
def items : Scope I H → Items I
  | [] => []
  | (name, .item item) :: rest => (name, item) :: items rest
  | _ :: rest => items rest

/-- The tree that a name stands for. -/
def tree? (name : String) : Scope I H → Option (VirtualTree H)
  | [] => none
  | (other, meant) :: rest => if other = name then meant.tree? else tree? name rest

/-- The scope in which a name stands for something else. -/
def assign (name : String) (meant : Meant I H) : Scope I H → Scope I H
  | [] => []
  | (other, old) :: rest =>
    if other = name then (name, meant) :: rest else (other, old) :: assign name meant rest

/-- What is left of a scope outside of a block that was entered with `outer`. -/
def leave (outer inner : Scope I H) : Scope I H :=
  inner.drop (inner.length - outer.length)

@[simp] theorem tree?_cons_self (name : String) (tree : VirtualTree H) (scope : Scope I H) :
    tree? name ((name, .tree tree) :: scope) = some tree := by
  rw [tree?, if_pos rfl, Meant.tree?]

theorem tree?_cons_ne {name other : String} (h : other ≠ name) (meant : Meant I H)
    (scope : Scope I H) : tree? name ((other, meant) :: scope) = tree? name scope := by
  rw [tree?, if_neg h]

@[simp] theorem assign_cons_self (name : String) (meant old : Meant I H) (scope : Scope I H) :
    assign name meant ((name, old) :: scope) = (name, meant) :: scope := by
  rw [assign, if_pos rfl]

theorem assign_cons_ne {name other : String} (h : other ≠ name) (meant old : Meant I H)
    (scope : Scope I H) :
    assign name meant ((other, old) :: scope) = (other, old) :: assign name meant scope := by
  rw [assign, if_neg h]

/-- Names that are other ones are passed over. -/
theorem tree?_append {name : String} {front : Scope I H} (h : ∀ entry ∈ front, entry.1 ≠ name)
    (scope : Scope I H) : tree? name (front ++ scope) = tree? name scope := by
  induction front with
  | nil => rfl
  | cons entry rest ih =>
      rw [List.cons_append, tree?_cons_ne (h entry (by simp))]
      exact ih fun other hMem => h other (by simp [hMem])

theorem assign_append {name : String} {front : Scope I H} (h : ∀ entry ∈ front, entry.1 ≠ name)
    (meant : Meant I H) (scope : Scope I H) :
    assign name meant (front ++ scope) = front ++ assign name meant scope := by
  induction front with
  | nil => rfl
  | cons entry rest ih =>
      rw [List.cons_append, assign_cons_ne (h entry (by simp)), List.cons_append]
      rw [ih fun other hMem => h other (by simp [hMem])]

/-- **Leaving a block takes what was introduced in it.** -/
theorem leave_append {outer after : Scope I H} (introduced : Scope I H)
    (h : after.length = outer.length) : leave outer (introduced ++ after) = after := by
  have hCount : (introduced ++ after).length - outer.length = introduced.length := by
    rw [List.length_append]
    omega
  rw [leave, hCount, List.drop_left]

end Scope

/-- The value that a property is set to. -/
def Source.value (interp : Interpretation I H) (items : Items I) : Source → Value H
  | .text value => .text value
  | .expression code => interp.value items code
  | .handler code => .handler (interp.handler items code)

/-- The items that are bound, time after time, when a block is entered. -/
def Head.rounds (interp : Interpretation I H) (items : Items I) : Head → List (Items I)
  | .once => [[]]
  | .when condition => if interp.condition items condition then [[]] else []
  | .each loop =>
    (interp.collection items loop.collection).map fun item => [(interp.itemName loop.item, item)]

/-- Items as a scope. -/
def Items.bound (items : Items I) : Scope I H :=
  items.map fun entry => (entry.1, .item entry.2)

mutual

/-- Runs a statement. -/
def Statement.run (interp : Interpretation I H) : Statement → Scope I H → Option (Scope I H)
  | .declare n tag, scope => some ((variableName n, .tree (.leaf tag)) :: scope)
  | .set n name source, scope => do
    let tree ← scope.tree? (variableName n)
    return scope.assign (variableName n) (.tree (tree.set name (source.value interp scope.items)))
  | .block head body, scope =>
    (head.rounds interp scope.items).foldlM (fun outer round => do
      let inner ← Statement.runAll interp body (round.bound ++ outer)
      return Scope.leave outer inner) scope
  | .push parent child, scope => do
    let pushed ← scope.tree? (variableName child)
    let scope := scope.assign (variableName child) .moved
    let tree ← scope.tree? (variableName parent)
    return scope.assign (variableName parent) (.tree (tree.push pushed))

/-- Runs statements one after the other. -/
def Statement.runAll (interp : Interpretation I H) :
    List Statement → Scope I H → Option (Scope I H)
  | [], scope => some scope
  | statement :: rest, scope => do
    let scope ← statement.run interp scope
    Statement.runAll interp rest scope

end

/-- Runs the body of a function that ends with the variable zero, which is what it
returns. -/
def runBody (interp : Interpretation I H) (program : List Statement) : Option (VirtualTree H) := do
  let scope ← Statement.runAll interp program []
  scope.tree? (variableName 0)

/-- Running statements in a row is running the first ones, then the others. -/
theorem runAll_append (interp : Interpretation I H) (front back : List Statement)
    (scope : Scope I H) :
    Statement.runAll interp (front ++ back) scope =
      (Statement.runAll interp front scope).bind (Statement.runAll interp back) := by
  induction front generalizing scope with
  | nil => rfl
  | cons statement rest ih =>
      rw [List.cons_append, Statement.runAll, Statement.runAll]
      cases statement.run interp scope with
      | none => rfl
      | some scope => exact ih scope

/-- **Variables with different numbers have different names.** -/
theorem variableName_inj {m n : Nat} (h : variableName m = variableName n) : m = n := by
  have hChars := congrArg String.toList h
  simp only [variableName, String.toList_append, List.append_cancel_left_eq] at hChars
  have hDigits : Nat.toDigits 10 m = Nat.toDigits 10 n := by
    rw [← Nat.toList_repr, ← Nat.toList_repr]
    exact hChars
  have hValue := congrArg (fun digits => Nat.ofDigitChars 10 digits 0) hDigits
  simpa only [Nat.ofDigitChars_ten_toDigits] using hValue

end LiveMarkup.Template
