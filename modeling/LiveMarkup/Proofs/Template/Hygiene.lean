import LiveMarkup.Proofs.Template.Correctness
import LiveMarkup.Proofs.Template.Numbering

/-!
# What the names of variables stand for

A program uses its variables by name: a property is set on a variable, and one
variable is pushed into another. In generated code a name stands for the binding
of it that is innermost at that place. Two kinds of statements bind names. A
declaration binds a variable in the rest of its block, and a loop binds its item
in its body.

The name of an item is any identifier of the markup, so it may be the name of a
variable. A block uses one variable from outside of it, which is the one that it
pushes into. So a loop is harmful if its item is named like the variable of the
parent of its element, and in no other case.

What the code copies from the markup is not looked into here.

## Main results

* `resolves_buildAll_iff` — which loops on the children of a node, and below them,
  are harmful.
* `resolves_of_itemsApart` — none is among programs of which it is known what they build,
  if items are read as here.
* `compile_hygienic` — **all uses of variables resolve if every item is apart from
  the variable of the parent**, and only then.
* `compile_captures` — an item that captures the variable of the parent.
-/

namespace LiveMarkup.Template

open Markup (Tag Node Document)

/-! ## Names -/

/-- The name that a loop binds its item to. Neither the mark of a raw word nor
comments around the word are a part of it. -/
def Loop.name? (loop : Loop) : Option String :=
  match Code.tokens? loop.item with
  | some [.word text] => some text
  | some [.rawWord text] => some text
  | _ => none

/-- What a name may be bound to. -/
inductive Binder where
  /-- The node that a variable was declared with. -/
  | variable (number : Nat)
  /-- The item of a loop. -/
  | item (loop : Loop)
  deriving DecidableEq, Repr

namespace Binder

/-- The name that is bound. -/
def name? : Binder → Option String
  | .variable n => some (variableName n)
  | .item loop => loop.name?

/-- What a name stands for, given what is bound around it, the innermost first. -/
def resolve (name : String) (scope : List Binder) : Option Binder :=
  scope.find? fun binder => binder.name? = some name

@[simp] theorem resolve_variable_self (n : Nat) (scope : List Binder) :
    resolve (variableName n) (.variable n :: scope) = some (.variable n) := by
  simp [resolve, name?]

theorem resolve_cons_ne {binder : Binder} {name : String} (h : binder.name? ≠ some name)
    (scope : List Binder) : resolve name (binder :: scope) = resolve name scope := by
  simp [resolve, h]

/-- A variable is not hidden by one that has another number. -/
theorem resolve_variable_ne {m n : Nat} (h : m ≠ n) (scope : List Binder) :
    resolve (variableName n) (.variable m :: scope) = resolve (variableName n) scope := by
  apply resolve_cons_ne
  intro hName
  exact h (variableName_inj (Option.some.inj hName))

end Binder

open Binder (resolve)

/-! ## Uses of variables -/

/-- What is bound on entering a block. -/
def Head.binders : Head → List Binder
  | .each loop => [.item loop]
  | _ => []

/-- What a statement binds for those behind it in its block. -/
def Statement.binders : Statement → List Binder
  | .declare n _ => [.variable n]
  | _ => []

/-- What is bound behind statements in a row. -/
def boundBehind (scope : List Binder) (statements : List Statement) : List Binder :=
  statements.foldl (fun scope statement => statement.binders ++ scope) scope

/-- A place where a statement uses a variable, and what the name of the variable
stands for there. -/
structure Use where
  number : Nat
  binder : Option Binder
  deriving DecidableEq, Repr

namespace Use

/-- A use of a variable, given what is bound around it. -/
def within (scope : List Binder) (n : Nat) : Use where
  number := n
  binder := resolve (variableName n) scope

/-- The name stands for the variable that is meant. -/
def Resolves (use : Use) : Prop :=
  use.binder = some (.variable use.number)

instance (use : Use) : Decidable use.Resolves :=
  inferInstanceAs (Decidable (_ = _))

end Use

mutual

/-- The uses of variables in a statement, given what is bound around it. -/
def Statement.uses (scope : List Binder) : Statement → List Use
  | .declare _ _ => []
  | .set n _ _ => [.within scope n]
  | .block head body => Statement.usesAll (head.binders ++ scope) body
  | .push parent child => [.within scope parent, .within scope child]

/-- The uses of variables in statements in a row. -/
def Statement.usesAll (scope : List Binder) : List Statement → List Use
  | [] => []
  | statement :: rest =>
    statement.uses scope ++ Statement.usesAll (statement.binders ++ scope) rest

end

/-- The uses of variables in the code of a plan. -/
def Plan.uses (plan : Plan) : List Use :=
  Statement.usesAll [] plan.program

/-! ## Items apart from variables -/

/-- The item of the loop on an element, if it has one, is not named like the
variable `parent`. -/
def isApartFrom (parent : Nat) (tag : Tag) : Bool :=
  (loop? tag.attributes).all fun loop => loop.name? != some (variableName parent)

mutual

/-- No loop on an element and below it has an item that is named like the variable
of the parent: `parent` for the element itself, which is built in variable `next`. -/
def nodeApart (parent next : Nat) : Node → Bool
  | .element tag content => isApartFrom parent tag && nodesApart next (next + 1) content
  | _ => true

/-- As `nodeApart`, for nodes in a row. -/
def nodesApart (parent next : Nat) : List Node → Bool
  | [] => true
  | node :: rest =>
    nodeApart parent next node && nodesApart parent (next + node.tags.length) rest

end

/-- No loop in a document has an item that is named like the variable of the
parent. The root has none, and its own loop is not used. -/
def documentApart (document : Document) : Bool :=
  nodesApart 0 1 document.content

theorem nodesApart_element (parent next : Nat) (tag : Tag) (content rest : List Node) :
    nodesApart parent next (.element tag content :: rest) =
      (isApartFrom parent tag && nodesApart next (next + 1) content &&
        nodesApart parent (next + (1 + (Node.tagsAll content).length)) rest) := by
  rw [nodesApart, nodeApart, Node.tags, List.length_cons, Nat.add_comm 1]

theorem nodesApart_skip (parent next : Nat) {node : Node} (hNode : node.isElement = false)
    (rest : List Node) : nodesApart parent next (node :: rest) = nodesApart parent next rest := by
  cases node with
  | element tag content => cases hNode
  | _ => rfl

/-! ## Statements in a row -/

theorem boundBehind_append (scope : List Binder) (front back : List Statement) :
    boundBehind scope (front ++ back) = boundBehind (boundBehind scope front) back := by
  rw [boundBehind, List.foldl_append]
  rfl

/-- Statements that declare nothing bind nothing for those behind them. -/
theorem boundBehind_eq_self {statements : List Statement} (scope : List Binder)
    (h : ∀ statement ∈ statements, statement.binders = []) :
    boundBehind scope statements = scope := by
  induction statements with
  | nil => rfl
  | cons statement rest ih =>
      rw [boundBehind, List.foldl_cons, h statement (by simp), List.nil_append]
      exact ih fun other hMem => h other (by simp [hMem])

/-- Statements in a row use what the first ones use, and then what the others do
behind them. -/
theorem usesAll_append (scope : List Binder) (front back : List Statement) :
    Statement.usesAll scope (front ++ back) =
      Statement.usesAll scope front ++ Statement.usesAll (boundBehind scope front) back := by
  induction front generalizing scope with
  | nil => rfl
  | cons statement rest ih =>
      rw [List.cons_append, Statement.usesAll, Statement.usesAll, ih, List.append_assoc]
      rfl

/-! ## Elements -/

theorem boundBehind_setsOf (scope : List Binder) (n : Nat) (bindings : List Binding) :
    boundBehind scope (setsOf n bindings) = scope := by
  apply boundBehind_eq_self
  intro statement hMem
  obtain ⟨b, -, rfl⟩ := List.mem_map.mp hMem
  rfl

theorem boundBehind_buildAll (scope : List Binder) (parent next : Nat) (plans : List Plan) :
    boundBehind scope (Plan.buildAll parent next plans) = scope := by
  induction plans generalizing next with
  | nil => rfl
  | cons plan rest ih => exact ih (next + plan.size)

/-- Building an element binds its variable for what stands behind. -/
theorem boundBehind_build (scope : List Binder) (next : Nat) (plan : Plan) :
    boundBehind scope (plan.build next) = .variable next :: scope := by
  cases plan with
  | element tag classified children =>
      rw [build_element]
      show boundBehind (.variable next :: scope)
        (setsOf next classified.bindings ++ Plan.buildAll next (next + 1) children) = _
      rw [boundBehind_append, boundBehind_setsOf, boundBehind_buildAll]

/-- All statements that set properties of a variable use that variable. -/
theorem mem_usesAll_setsOf {scope : List Binder} {n : Nat} {bindings : List Binding} {use : Use}
    (h : use ∈ Statement.usesAll scope (setsOf n bindings)) : use = .within scope n := by
  induction bindings with
  | nil => cases h
  | cons binding rest ih =>
      have hSplit : use ∈ Use.within scope n :: Statement.usesAll scope (setsOf n rest) := h
      rcases List.mem_cons.mp hSplit with hHere | hRest
      · exact hHere
      · exact ih hRest

/-- The variable of an element is used by what sets its properties and by what
builds its children. -/
theorem usesAll_build (scope : List Binder) (next : Nat) (tag : Tag) (classified : Classified)
    (children : List Plan) :
    Statement.usesAll scope (Plan.build next (.element tag classified children)) =
      Statement.usesAll (.variable next :: scope) (setsOf next classified.bindings) ++
        Statement.usesAll (.variable next :: scope) (Plan.buildAll next (next + 1) children) := by
  rw [build_element, Statement.usesAll, Statement.uses, List.nil_append]
  show Statement.usesAll (.variable next :: scope)
    (setsOf next classified.bindings ++ Plan.buildAll next (next + 1) children) = _
  rw [usesAll_append, boundBehind_setsOf]

/-- A block for a child uses what its body does, and at the end of it the variable
of the parent and the one of the child. -/
theorem usesAll_buildAll_cons (scope : List Binder) (parent next : Nat) (plan : Plan)
    (rest : List Plan) :
    Statement.usesAll scope (Plan.buildAll parent next (plan :: rest)) =
      Statement.usesAll
          ((Head.ofDirective plan.classified.directive).binders ++ scope) (plan.build next) ++
        [.within (.variable next ::
            ((Head.ofDirective plan.classified.directive).binders ++ scope)) parent,
          .within (.variable next ::
            ((Head.ofDirective plan.classified.directive).binders ++ scope)) next] ++
        Statement.usesAll scope (Plan.buildAll parent (next + plan.size) rest) := by
  rw [Plan.buildAll, Statement.usesAll, Statement.uses, usesAll_append, boundBehind_build]
  rfl

/-- A block binds the item of the loop on its element. -/
theorem binders_ofDirective {options : Options} {tag : Tag} {classified : Classified}
    (h : classify options tag = .ok classified) :
    (Head.ofDirective classified.directive).binders =
      (loop? tag.attributes).toList.map Binder.item := by
  rw [classify_directive h]
  cases loop? tag.attributes with
  | some loop => rfl
  | none => cases condition? tag.attributes <;> rfl

/-! ## Uses that resolve -/

/-- At the end of the block for a child, the name of the variable of the parent
stands for it if the item of the block is apart from it. -/
theorem resolves_parent_iff {scope : List Binder} {parent next : Nat} (hNe : next ≠ parent)
    (hScope : resolve (variableName parent) scope = some (.variable parent)) (tag : Tag) :
    (Use.within (.variable next :: ((loop? tag.attributes).toList.map Binder.item ++ scope))
        parent).Resolves ↔ isApartFrom parent tag = true := by
  rw [Use.Resolves, Use.within, Binder.resolve_variable_ne hNe, isApartFrom]
  cases loop? tag.attributes with
  | none => simpa using hScope
  | some loop =>
      by_cases hName : loop.name? = some (variableName parent)
      · simp [resolve, Binder.name?, hName]
      · have hItem : (Binder.item loop).name? ≠ some (variableName parent) := hName
        have hOuter : resolve (variableName parent) (.item loop :: scope) =
            some (.variable parent) := by
          rw [Binder.resolve_cons_ne hItem, hScope]
        simpa [hName] using hOuter

/-- The uses that building an element makes resolve if those that building its
children makes do. -/
theorem resolves_build_iff (scope : List Binder) (next : Nat) (tag : Tag)
    (classified : Classified) (children : List Plan) :
    (∀ use ∈ Statement.usesAll scope (Plan.build next (.element tag classified children)),
        use.Resolves) ↔
      ∀ use ∈ Statement.usesAll (.variable next :: scope)
        (Plan.buildAll next (next + 1) children), use.Resolves := by
  rw [usesAll_build, List.forall_mem_append]
  apply and_iff_right
  intro use hMem
  rw [mem_usesAll_setsOf hMem]
  exact Binder.resolve_variable_self next scope

/-- **The uses that building the children of a node makes resolve if the items of
the loops on them and below them are apart**, and only then. -/
theorem resolves_buildAll_iff {options : Options} (nodes : List Node) {plans : List Plan}
    (hPlans : Plan.ofNodes options nodes = .ok plans) (scope : List Binder) (parent next : Nat)
    (hLt : parent < next)
    (hScope : resolve (variableName parent) scope = some (.variable parent)) :
    (∀ use ∈ Statement.usesAll scope (Plan.buildAll parent next plans), use.Resolves) ↔
      nodesApart parent next nodes = true := by
  induction nodes using Node.induction_elements generalizing plans scope parent next with
  | nil =>
      rw [Plan.ofNodes, Except.ok.injEq] at hPlans
      subst hPlans
      simp [Plan.buildAll, Statement.usesAll, nodesApart]
  | skip node rest hNode ih =>
      rw [ofNodes_skip options hNode] at hPlans
      rw [nodesApart_skip parent next hNode]
      exact ih hPlans scope parent next hLt hScope
  | element tag content rest ihContent ihRest =>
      obtain ⟨classified, children, others, hTag, hChildren, hOthers, rfl⟩ :=
        ofNodes_element_ok hPlans
      have hNe : next ≠ parent := by omega
      -- The scope that the body of the block is entered with.
      let inner := (loop? tag.attributes).toList.map Binder.item ++ scope
      have hBody : (∀ use ∈ Statement.usesAll inner
          (Plan.build next (.element tag classified children)), use.Resolves) ↔
            nodesApart next (next + 1) content = true := by
        rw [resolves_build_iff]
        exact ihContent hChildren _ next (next + 1) (Nat.lt_succ_self next)
          (Binder.resolve_variable_self next inner)
      have hParent : (Use.within (.variable next :: inner) parent).Resolves ↔
          isApartFrom parent tag = true := resolves_parent_iff hNe hScope tag
      have hChild : (Use.within (.variable next :: inner) next).Resolves :=
        Binder.resolve_variable_self next inner
      have hRest := ihRest hOthers scope parent
        (next + (1 + (Node.tagsAll content).length)) (by omega) hScope
      rw [usesAll_buildAll_cons, Plan.classified, binders_ofDirective hTag, Plan.size,
        sizeAll_of_ofNodes hChildren, List.forall_mem_append, List.forall_mem_append,
        List.forall_mem_cons, List.forall_mem_singleton, hBody, hParent, hRest,
        nodesApart_element, Bool.and_eq_true, Bool.and_eq_true]
      constructor
      · rintro ⟨⟨hContent, hItem, -⟩, hBehind⟩
        exact ⟨⟨hItem, hContent⟩, hBehind⟩
      · rintro ⟨⟨hItem, hContent⟩, hBehind⟩
        exact ⟨⟨hContent, hItem, hChild⟩, hBehind⟩

/-- The uses in the code of a document resolve if the items of its loops are apart,
and only then. -/
theorem resolves_uses_iff {options : Options} {document : Document} {plan : Plan}
    (hPlan : Plan.ofDocument options document = .ok plan) :
    (∀ use ∈ plan.uses, use.Resolves) ↔ documentApart document = true := by
  obtain ⟨classified, children, -, hChildren, rfl⟩ := ofDocument_ok hPlan
  rw [Plan.uses, Plan.program, resolves_build_iff]
  exact resolves_buildAll_iff document.content hChildren [.variable 0] 0 1 Nat.zero_lt_one
    (Binder.resolve_variable_self 0 [])

/-! ## Items as they are read -/

/-- The name that an item is read as: the one that its loop binds, or the item as it is
written if that is no name. -/
def plainName (item : String) : String :=
  (Loop.name? ⟨item, ""⟩).getD item

/-- An interpretation reads items as the generated code does. -/
def Interpretation.IsPlain {I H : Type} (interp : Interpretation I H) : Prop :=
  interp.itemName = plainName

section Plain

variable {I H : Type} {interp : Interpretation I H}

/-- What a plain interpretation calls an item is the name that its loop binds. -/
theorem Interpretation.IsPlain.itemName (h : interp.IsPlain) {loop : Loop} {name : String}
    (hName : loop.name? = some name) : interp.itemName loop.item = name := by
  have hItem : Loop.name? ⟨loop.item, ""⟩ = some name := hName
  rw [h, plainName, hItem, Option.getD_some]

/-- Items that are apart from all variables are apart from that of the parent. -/
theorem nodesApart_of_itemsApart (h : interp.IsPlain) (nodes : List Node) {parent next : Nat}
    (hApart : ItemsApart interp nodes) : nodesApart parent next nodes = true := by
  induction nodes using Node.induction_elements generalizing parent next with
  | nil => rfl
  | skip node rest hNode ih =>
      rw [nodesApart_skip parent next hNode]
      exact ih (itemsApart_skip hNode hApart)
  | element tag content rest ihContent ihRest =>
      obtain ⟨hLoop, hContent, hRest⟩ := itemsApart_element hApart
      have hTag : isApartFrom parent tag = true := by
        rw [isApartFrom]
        cases hHere : loop? tag.attributes with
        | none => rfl
        | some loop =>
            simp only [Option.all_some, bne_iff_ne]
            exact fun hName => hLoop loop hHere parent (h.itemName hName)
      rw [nodesApart_element, hTag, ihContent hContent, ihRest hRest]
      rfl

/-- **Where items are read plainly and are apart from all variables, every use of a
variable resolves.** So the programs that are known to build the view are hygienic. -/
theorem resolves_of_itemsApart {options : Options} {document : Document} {plan : Plan}
    (h : interp.IsPlain) (hPlan : Plan.ofDocument options document = .ok plan)
    (hApart : ItemsApart interp document.content) : ∀ use ∈ plan.uses, use.Resolves :=
  (resolves_uses_iff hPlan).mpr (nodesApart_of_itemsApart h document.content hApart)

end Plain

/-! ## Compilations -/

/-- **All uses of variables resolve if every item is apart from the variable of the
parent**, and only then. The code is the text of a program in which every element
has a variable of its own. -/
theorem compile_hygienic {options : Options} {host source : String} {view : View}
    (hCompile : compile options host source = .ok view) :
    ∃ document plan, Document.read source = .ok document ∧
      Plan.ofDocument options document = .ok plan ∧
      view.source = renderLines (moduleLines options none host view.moduleName document plan) ∧
      Statement.declaredAll plan.program = List.range document.tags.length ∧
      ((∀ use ∈ plan.uses, use.Resolves) ↔ documentApart document = true) := by
  obtain ⟨identifier, document, plan, -, hRead, hPlan, rfl⟩ := exists_read_of_compile hCompile
  refine ⟨document, plan, hRead, hPlan, rfl, ?_, resolves_uses_iff hPlan⟩
  rw [Plan.program, declaredAll_build, size_of_ofDocument hPlan, List.range_eq_range']

/-- Items with the names of variables that do no harm: none is that of the parent. -/
theorem compile_hygienic_apart :
    let source := "<a><b _foreach='__v2 of xs'><c _foreach='r#__v0 in ys'/></b></a>"
    ∃ view, ∃ plan : Plan, compile .standard "Host" source = .ok view ∧
      Statement.declaredAll plan.program = [0, 1, 2] ∧ ∀ use ∈ plan.uses, use.Resolves := by
  intro source
  have hHost : (Code.typeName? "Host").isSome = true := by decide +kernel
  have hChecks : (Document.read source).toOption.map (fun document =>
      (document.tags.length, documentApart document,
        document.tags.all fun tag => fault? .standard tag = none)) = some (3, true, true) := by
    decide +kernel
  obtain ⟨document, hRead, hDocument⟩ := exists_ok_of_map hChecks
  simp only [Prod.mk.injEq, List.all_eq_true, decide_eq_true_eq] at hDocument
  obtain ⟨hCount, hApart, hFaults⟩ := hDocument
  obtain ⟨view, hCompile⟩ := exists_compile hHost hRead fun tag hMem =>
    fault?_eq_none_iff.mp (hFaults tag hMem)
  obtain ⟨document', plan, hRead', -, -, hDeclared, hUses⟩ := compile_hygienic hCompile
  obtain rfl : document = document' := Except.ok.inj (hRead.symm.trans hRead')
  rw [hCount] at hDeclared
  exact ⟨view, plan, hCompile, hDeclared, hUses.mpr hApart⟩

/-- An element without content is told by its tag. -/
theorem eq_element {node : Node} {tag : Tag} (hTags : node.tags = [tag])
    (hContent : node.content = []) : node = .element tag [] := by
  cases node with
  | element here content =>
      obtain rfl : content = [] := hContent
      rw [(List.cons.inj hTags).1]
  | text line data => cases hTags
  | comment line body => cases hTags
  | instruction line target data => cases hTags

/-- **An item that captures the variable of the parent**: the page is built, and
what is to be pushed into the page is pushed into the item. -/
theorem compile_captures :
    let source := "<a><b _foreach=\"__v0 of xs\"/></a>"
    ∃ view document, ∃ plan : Plan, compile .standard "Host" source = .ok view ∧
      Document.read source = .ok document ∧ Plan.ofDocument .standard document = .ok plan ∧
      view.source = renderLines
        (moduleLines .standard none "Host" view.moduleName document plan) ∧
      plan.uses = [⟨0, some (.item ⟨"__v0", "xs"⟩)⟩, ⟨1, some (.variable 1)⟩] ∧
      ¬ ∀ use ∈ plan.uses, use.Resolves := by
  intro source
  have hHost : Code.typeName? "Host" = some "Host" := by decide +kernel
  let root : Tag := ⟨"a", [], 1⟩
  let row : Tag := ⟨"b", [⟨"_foreach", "__v0 of xs"⟩], 1⟩
  have hShape : (Document.read source).toOption.map (fun document =>
      (document.root, document.content.map Node.tags,
        (document.content.flatMap Node.content).length)) = some (root, [[row]], 0) := by
    decide +kernel
  obtain ⟨document, hRead, hDocument⟩ := exists_ok_of_map hShape
  simp only [Prod.mk.injEq, List.length_eq_zero_iff] at hDocument
  obtain ⟨hTag, hTags, hEmpty⟩ := hDocument
  have hContent : document.content = [.element row []] := by
    obtain ⟨node, hNode, hTags⟩ := List.map_eq_singleton_iff.mp hTags
    rw [hNode, List.flatMap_singleton] at hEmpty
    rw [hNode, eq_element hTags hEmpty]
  have hRoot : classify .standard root = .ok ⟨none, [], none⟩ :=
    eq_ok_of_toOption (by decide +kernel)
  have hRow : classify .standard row = .ok ⟨some (.each ⟨"__v0", "xs"⟩), [], none⟩ :=
    eq_ok_of_toOption (by decide +kernel)
  let plan : Plan := .element root ⟨none, [], none⟩
    [.element row ⟨some (.each ⟨"__v0", "xs"⟩), [], none⟩ []]
  have hPlan : Plan.ofDocument .standard document = .ok plan := by
    rw [Plan.ofDocument, hTag, hContent, Plan.ofNodes, hRoot, hRow, Plan.ofNodes]
    rfl
  have hCompile := compile_of_read .standard hHost hRead
  rw [hPlan] at hCompile
  have hUses : plan.uses = [⟨0, some (.item ⟨"__v0", "xs"⟩)⟩, ⟨1, some (.variable 1)⟩] := by
    decide +kernel
  refine ⟨_, document, plan, hCompile, hRead, hPlan, rfl, hUses, ?_⟩
  rw [hUses]
  decide

end LiveMarkup.Template
