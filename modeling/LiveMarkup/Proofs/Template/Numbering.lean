import LiveMarkup.Proofs.Template.Faults

/-!
# The variables of a program

Every element is built in a variable of its own. The variables are numbered in
document order, from zero on, so the number of a variable is the number of the
elements in front of its own.

## Main results

* `size_of_ofDocument` — a plan has as many elements as its document.
* `declaredAll_build` — a program declares every variable once, in order.
-/

namespace LiveMarkup.Template

open Markup (Tag Node Document)

/-! ## Sizes -/

/-- The plans of nodes have as many elements as the nodes. -/
theorem sizeAll_of_ofNodes {options : Options} {nodes : List Node} {plans : List Plan}
    (h : Plan.ofNodes options nodes = .ok plans) :
    Plan.sizeAll plans = (Node.tagsAll nodes).length := by
  induction nodes using Node.induction_elements generalizing plans with
  | nil =>
      rw [Plan.ofNodes, Except.ok.injEq] at h
      subst h
      rfl
  | skip node rest hNode ih =>
      rw [ofNodes_skip options hNode] at h
      rw [tags_skip hNode]
      exact ih h
  | element tag content rest ihContent ihRest =>
      obtain ⟨classified, children, others, -, hChildren, hOthers, rfl⟩ := ofNodes_element_ok h
      rw [Plan.sizeAll, Plan.size, ihContent hChildren, ihRest hOthers, Node.tagsAll_element,
        List.length_cons, List.length_append]
      omega

/-- **A plan has as many elements as its document.** -/
theorem size_of_ofDocument {options : Options} {document : Document} {plan : Plan}
    (h : Plan.ofDocument options document = .ok plan) : plan.size = document.tags.length := by
  obtain ⟨classified, children, -, hChildren, rfl⟩ := ofDocument_ok h
  rw [Plan.size, sizeAll_of_ofNodes hChildren, Document.tags_eq, List.length_cons]
  omega

/-! ## Declarations -/

mutual

/-- The variables that a statement declares, in the blocks in it too. -/
def Statement.declared : Statement → List Nat
  | .declare n _ => [n]
  | .set _ _ _ => []
  | .block _ body => Statement.declaredAll body
  | .push _ _ => []

/-- The variables that statements in a row declare. -/
def Statement.declaredAll : List Statement → List Nat
  | [] => []
  | statement :: rest => statement.declared ++ Statement.declaredAll rest

end

theorem declaredAll_append (front back : List Statement) :
    Statement.declaredAll (front ++ back) =
      Statement.declaredAll front ++ Statement.declaredAll back := by
  induction front with
  | nil => rfl
  | cons statement rest ih =>
      rw [List.cons_append, Statement.declaredAll, Statement.declaredAll, ih, List.append_assoc]

/-- The statements that set what the attributes of an element bind. -/
def setsOf (n : Nat) (bindings : List Binding) : List Statement :=
  bindings.map fun b => .set n b.source.1 b.source.2

theorem build_element (next : Nat) (tag : Tag) (classified : Classified) (children : List Plan) :
    Plan.build next (.element tag classified children) =
      .declare next tag.name ::
        (setsOf next classified.bindings ++ Plan.buildAll next (next + 1) children) := by
  rw [Plan.build, setsOf, List.cons_append]

theorem declaredAll_setsOf (n : Nat) (bindings : List Binding) :
    Statement.declaredAll (setsOf n bindings) = [] := by
  induction bindings with
  | nil => rfl
  | cons binding rest ih => exact ih

mutual

/-- **A program declares every variable once, in order.** -/
theorem declaredAll_build (next : Nat) : (plan : Plan) →
    Statement.declaredAll (plan.build next) = List.range' next plan.size
  | .element tag classified children => by
      rw [build_element, Statement.declaredAll, Statement.declared, declaredAll_append,
        declaredAll_setsOf, List.nil_append, declaredAll_buildAll next (next + 1) children,
        Plan.size, Nat.add_comm 1, List.range'_succ]
      rfl

theorem declaredAll_buildAll (parent next : Nat) : (plans : List Plan) →
    Statement.declaredAll (Plan.buildAll parent next plans) =
      List.range' next (Plan.sizeAll plans)
  | [] => rfl
  | plan :: rest => by
      have hBody : Statement.declaredAll (plan.build next ++ [.push parent next]) =
          List.range' next plan.size := by
        rw [declaredAll_append, declaredAll_build next plan]
        exact List.append_nil _
      rw [Plan.buildAll, Statement.declaredAll, Statement.declared, hBody,
        declaredAll_buildAll parent (next + plan.size) rest, Plan.sizeAll,
        ← List.range'_append_1]

end

end LiveMarkup.Template
