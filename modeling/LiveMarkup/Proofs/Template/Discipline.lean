import LiveMarkup.Proofs.Template.Trace
import Mathlib.Logic.Relation

/-!
# The discipline of a program

A program that builds a view keeps to an order in which every variable can be relied
on. The elements are declared in document order. Properties are set between the
declaration of their element and those of the elements in it. A node is pushed once,
into the node of the element that it is in, when everything is done that is to be done
for it and for what is in it; the line stands in the block of the node, which stands
among the lines of the other.

`Document.edges` tells which element lies in which, by their numbers in document order.
It is read off the markup and knows nothing of programs.

## Main results

* `declared_traceAll`, `pushed_traceAll` — what a program declares and pushes are the
  elements of its document.
* `Disciplined` — what is said of the steps of a document.
* `compile_disciplined` — **compiled programs are disciplined**.
-/

namespace LiveMarkup

namespace Markup

/-! ## Elements in elements -/

mutual

/-- For every element in a node the number of the element that it is in and its own.
Elements are numbered in document order; `parent` is the number of the element that the
node is in, and `next` that of the first element in the node. -/
def Node.edges (parent next : Nat) : Node → List (Nat × Nat)
  | .element _ content => (parent, next) :: Node.edgesAll next (next + 1) content
  | _ => []

/-- For every element in nodes in a row the number of the element that it is in and its
own. -/
def Node.edgesAll (parent next : Nat) : List Node → List (Nat × Nat)
  | [] => []
  | node :: rest =>
    node.edges parent next ++ Node.edgesAll parent (next + node.tags.length) rest

end

/-- The elements of a document but its root, each behind the element that it is in. The
root has number zero. -/
def Document.edges (document : Document) : List (Nat × Nat) :=
  Node.edgesAll 0 1 document.content

/-- One element is another or lies in it, at whatever depth. -/
def Document.Below (document : Document) : Nat → Nat → Prop :=
  Relation.ReflTransGen fun p c => (p, c) ∈ document.edges

theorem Node.edgesAll_element (parent next : Nat) (tag : Tag) (content rest : List Node) :
    Node.edgesAll parent next (.element tag content :: rest) =
      (parent, next) :: (Node.edgesAll next (next + 1) content ++
        Node.edgesAll parent (next + 1 + (Node.tagsAll content).length) rest) := by
  have hNext : next + ((Node.tagsAll content).length + 1) =
      next + 1 + (Node.tagsAll content).length := by omega
  rw [Node.edgesAll, Node.edges, Node.tags, List.length_cons, hNext, List.cons_append]

theorem Node.edgesAll_skip (parent next : Nat) {node : Node} (hNode : node.isElement = false)
    (rest : List Node) :
    Node.edgesAll parent next (node :: rest) = Node.edgesAll parent next rest := by
  cases node with
  | element tag content => cases hNode
  | _ => rfl

end Markup

namespace Template

open Markup (Tag Node Document)

theorem edgesAll_children (parent next : Nat) (nodes : List Node) :
    (Node.edgesAll parent next nodes).map Prod.snd =
      List.range' next (Node.tagsAll nodes).length := by
  induction nodes using Node.induction_elements generalizing parent next with
  | nil => rfl
  | skip node rest hNode ih => rw [Node.edgesAll_skip parent next hNode, tags_skip hNode, ih]
  | element tag content rest ihContent ihRest =>
      rw [Node.edgesAll_element, Node.tagsAll_element, List.map_cons, List.map_append, ihContent,
        ihRest, List.length_cons, List.length_append, List.range'_succ, ← List.range'_append_1]

/-- Every element of a document but its root lies in one other. -/
theorem edges_children (document : Document) :
    document.edges.map Prod.snd = List.range' 1 (document.tags.length - 1) := by
  rw [Document.edges, edgesAll_children, Document.tags_eq, List.length_cons, Nat.add_sub_cancel]

/-- An element has a smaller number than the elements in it. -/
theorem lt_of_mem_edgesAll {parent next : Nat} {nodes : List Node} (hParent : parent < next)
    {p c : Nat} (h : (p, c) ∈ Node.edgesAll parent next nodes) : p < c := by
  induction nodes using Node.induction_elements generalizing parent next with
  | nil => cases h
  | skip node rest hNode ih =>
      rw [Node.edgesAll_skip parent next hNode] at h
      exact ih hParent h
  | element tag content rest ihContent ihRest =>
      rw [Node.edgesAll_element, List.mem_cons, List.mem_append] at h
      rcases h with hHere | hInside | hBehind
      · cases hHere
        exact hParent
      · exact ihContent (Nat.lt_succ_self next) hInside
      · exact ihRest (by omega) hBehind

/-! ## Declarations and pushes -/

/-- The variable that a step declares, and the tag of the node in it. -/
def Step.declared? (step : Step) : Option (Nat × String) :=
  match step.act with
  | .declare n tag => some (n, tag)
  | _ => none

/-- The variables of a push. -/
def Step.pushed? (step : Step) : Option (Nat × Nat) :=
  match step.act with
  | .push parent child => some (parent, child)
  | _ => none

theorem pushed?_eq_some {step : Step} {parent child : Nat} :
    step.pushed? = some (parent, child) ↔ step = ⟨step.scope, .push parent child⟩ := by
  obtain ⟨scope, act⟩ := step
  cases act <;> simp [Step.pushed?]

/-- What is read off the steps of an element is read off its declaration, if properties
do not matter. -/
theorem filterMap_ownSteps {α : Type} {f : Step → Option α} {scope : List Nat} {n : Nat}
    (hSets : ∀ name source, f ⟨scope, .set n name source⟩ = none) (tag : Tag)
    (classified : Classified) :
    (ownSteps scope n tag classified).filterMap f = (f ⟨scope, .declare n tag.name⟩).toList := by
  have hNone : (classified.bindings.map fun b =>
      (⟨scope, .set n b.source.1 b.source.2⟩ : Step)).filterMap f = [] := by
    rw [List.filterMap_eq_nil_iff]
    intro step hMem
    obtain ⟨binding, -, rfl⟩ := List.mem_map.mp hMem
    exact hSets _ _
  rw [ownSteps, List.filterMap_cons, hNone]
  cases f ⟨scope, .declare n tag.name⟩ <;> rfl

theorem declared_builtSteps (next : Nat) (scope : List Nat) (tag : Tag) (classified : Classified)
    (children : List Plan) :
    (builtSteps next scope tag classified children).filterMap Step.declared? =
      (next, tag.name) ::
        (Plan.traceAll next (next + 1) scope children).filterMap Step.declared? := by
  rw [builtSteps, List.filterMap_append, filterMap_ownSteps fun _ _ => rfl]
  rfl

theorem pushed_builtSteps (next : Nat) (scope : List Nat) (tag : Tag) (classified : Classified)
    (children : List Plan) :
    (builtSteps next scope tag classified children).filterMap Step.pushed? =
      (Plan.traceAll next (next + 1) scope children).filterMap Step.pushed? := by
  rw [builtSteps, List.filterMap_append, filterMap_ownSteps fun _ _ => rfl]
  rfl

/-- The variables that tags are held in, from a number on. -/
def numbered (next : Nat) (tags : List Tag) : List (Nat × String) :=
  (tags.zipIdx next).map fun entry => (entry.2, entry.1.name)

theorem numbered_cons (next : Nat) (tag : Tag) (rest : List Tag) :
    numbered next (tag :: rest) = (next, tag.name) :: numbered (next + 1) rest := rfl

theorem numbered_append (next : Nat) (front back : List Tag) :
    numbered next (front ++ back) = numbered next front ++ numbered (next + front.length) back := by
  rw [numbered, List.zipIdx_append, List.map_append]
  rfl

/-- The elements among nodes are declared in document order. -/
theorem declared_traceAll {options : Options} {nodes : List Node} {plans : List Plan}
    (h : Plan.ofNodes options nodes = .ok plans) (parent next : Nat) (scope : List Nat) :
    (Plan.traceAll parent next scope plans).filterMap Step.declared? =
      numbered next (Node.tagsAll nodes) := by
  induction nodes using Node.induction_elements generalizing plans parent next scope with
  | nil =>
      rw [Plan.ofNodes] at h
      cases h
      rw [Plan.traceAll]
      rfl
  | skip node rest hNode ih =>
      rw [ofNodes_skip options hNode] at h
      rw [tags_skip hNode]
      exact ih h parent next scope
  | element tag content rest ihContent ihRest =>
      obtain ⟨classified, children, others, -, hChildren, hOthers, rfl⟩ := ofNodes_element_ok h
      rw [traceAll_element, blockSteps, Node.tagsAll_element, numbered_cons, numbered_append,
        List.filterMap_append, List.filterMap_cons_none rfl, List.filterMap_append,
        declared_builtSteps, ihContent hChildren, ihRest hOthers, sizeAll_of_ofNodes hChildren]
      simp [Step.declared?]

/-- The elements among nodes are pushed into the elements that they are in. -/
theorem pushed_traceAll {options : Options} {nodes : List Node} {plans : List Plan}
    (h : Plan.ofNodes options nodes = .ok plans) (parent next : Nat) (scope : List Nat) :
    ((Plan.traceAll parent next scope plans).filterMap Step.pushed?).Perm
      (Node.edgesAll parent next nodes) := by
  induction nodes using Node.induction_elements generalizing plans parent next scope with
  | nil =>
      rw [Plan.ofNodes] at h
      cases h
      rw [Plan.traceAll, Node.edgesAll]
      exact .nil
  | skip node rest hNode ih =>
      rw [ofNodes_skip options hNode] at h
      rw [Node.edgesAll_skip parent next hNode]
      exact ih h parent next scope
  | element tag content rest ihContent ihRest =>
      obtain ⟨classified, children, others, -, hChildren, hOthers, rfl⟩ := ofNodes_element_ok h
      have hPushed : (Plan.traceAll parent next scope
          (.element tag classified children :: others)).filterMap Step.pushed? =
          (Plan.traceAll next (next + 1) (next :: scope) children).filterMap Step.pushed? ++
            (parent, next) :: (Plan.traceAll parent (next + 1 + Plan.sizeAll children) scope
              others).filterMap Step.pushed? := by
        rw [traceAll_element, blockSteps, List.filterMap_append, List.filterMap_cons_none rfl,
          List.filterMap_append, pushed_builtSteps]
        simp [Step.pushed?]
      rw [hPushed, Node.edgesAll_element, sizeAll_of_ofNodes hChildren]
      exact List.perm_middle.trans (((ihContent hChildren next (next + 1) (next :: scope)).append
        (ihRest hOthers parent _ scope)).cons _)

/-! ## Discipline -/

/-- The variables that an act mentions. -/
def Act.variables : Act → List Nat
  | declare n _ | set n _ _ => [n]
  | push parent child => [parent, child]
  | opening _ | closing => []

/-- Whether one of the steps declares a variable. -/
def Declares (steps : List Step) (n : Nat) : Prop :=
  ∃ scope tag, ⟨scope, .declare n tag⟩ ∈ steps

/-- The steps of a document keep to the discipline. Variables have the numbers of the
elements that they hold the nodes of, in document order. -/
structure Disciplined (document : Document) (steps : List Step) : Prop where
  /-- Each element is declared, once and in document order, and nothing else is. -/
  declared : steps.filterMap Step.declared? = numbered 0 document.tags
  /-- Properties are set behind the declaration of their element and in front of those of
  the elements in it. -/
  sets : ∀ before after scope n name source,
    steps = before ++ ⟨scope, .set n name source⟩ :: after →
      Declares before n ∧ ∀ c, (n, c) ∈ document.edges → ¬ Declares before c
  /-- Each element but the root is pushed, once and into the element that it is in, and
  nothing else is. -/
  pushed : (steps.filterMap Step.pushed?).Perm document.edges
  /-- In front of the push all is done for the element and for those in it, and behind it
  nothing stands in the block of the element. -/
  behind : ∀ before after scope p c, steps = before ++ ⟨scope, .push p c⟩ :: after →
    (∀ step ∈ after, c ∉ step.scope) ∧
      ∀ d, document.Below c d → Declares before d ∧ ∀ step ∈ after, d ∉ step.act.variables
  /-- The push stands with the declaration of the element in the block of the element,
  one block inside the declaration of the element that it is in. -/
  inside : ∀ scope p c, ⟨scope, .push p c⟩ ∈ steps → ∃ outer above tag,
    scope = c :: outer ∧ ⟨outer, .declare p above⟩ ∈ steps ∧ ⟨scope, .declare c tag⟩ ∈ steps
  /-- The elements in an element are pushed in document order. -/
  siblings : (steps.filterMap Step.pushed?).Pairwise fun a b => a.1 = b.1 → a.2 < b.2
  /-- Every block that is opened is closed. -/
  balanced : Balanced (steps.map Step.act)

section

variable {steps : List Step}

/-- A variable is declared in one place only. -/
theorem scope_eq_of_declare (hOrder : steps.Pairwise InOrder) {scope other : List Nat} {n : Nat}
    {tag name : String} (h : ⟨scope, .declare n tag⟩ ∈ steps)
    (hOther : ⟨other, .declare n name⟩ ∈ steps) : scope = other := by
  induction hOrder with
  | nil => cases h
  | cons hFirst _ ih =>
      rcases List.mem_cons.mp h with rfl | hBehind <;>
        rcases List.mem_cons.mp hOther with hHere | hLater
      · cases hHere
        rfl
      · exact absurd ((hFirst _ hLater).1 n name rfl) (Nat.lt_irrefl n)
      · rw [← hHere] at hFirst
        exact absurd ((hFirst _ hBehind).1 n tag rfl) (Nat.lt_irrefl n)
      · exact ih hBehind hLater

/-- A step that stands neither at a place nor behind it stands in front. -/
theorem mem_before {before after : List Step} {step here : Step}
    (hMem : step ∈ before ++ here :: after) (hNe : step ≠ here) (hAfter : step ∉ after) :
    step ∈ before := by
  rcases List.mem_append.mp hMem with hFront | hBack
  · exact hFront
  · rcases List.mem_cons.mp hBack with rfl | hLater
    · exact absurd rfl hNe
    · exact absurd hLater hAfter

/-- Whatever lies in an element that is pushed is declared, in the block of the element. -/
theorem exists_declare_of_below {document : Document} (hOrder : steps.Pairwise InOrder)
    (hPlaced : ∀ step ∈ steps, Placed steps step)
    (hPushed : (steps.filterMap Step.pushed?).Perm document.edges) {scope : List Nat} {p c d : Nat}
    (hPush : ⟨scope, .push p c⟩ ∈ steps) (hBelow : document.Below c d) :
    ∃ around tag, ⟨around, .declare d tag⟩ ∈ steps ∧ c ∈ around := by
  induction hBelow with
  | refl =>
      obtain ⟨outer, above, tag, -, rfl, hDeclare⟩ := (hPlaced _ hPush).pushes p c rfl
      exact ⟨c :: outer, tag, hDeclare, List.mem_cons_self⟩
  | @tail d e _ hEdge ih =>
      obtain ⟨around, tag, hAround, hMem⟩ := ih
      obtain ⟨step, hStep, hRead⟩ := List.mem_filterMap.mp (hPushed.mem_iff.mpr hEdge)
      obtain ⟨outer, above, inner, hOuter, hScope, hDeclare⟩ :=
        (hPlaced step hStep).pushes d e (congrArg Step.act (pushed?_eq_some.mp hRead))
      obtain rfl := scope_eq_of_declare hOrder hAround hOuter
      exact ⟨step.scope, inner, hDeclare, hScope ▸ List.mem_cons_of_mem e hMem⟩

/-- A step that mentions a variable stands in the blocks in which it is declared. -/
theorem mem_scope_of_mentions (hOrder : steps.Pairwise InOrder)
    (hPlaced : ∀ step ∈ steps, Placed steps step) {around : List Nat} {d : Nat} {tag : String}
    (hDeclare : ⟨around, .declare d tag⟩ ∈ steps) {step : Step} (hStep : step ∈ steps)
    (hMentions : d ∈ step.act.variables) {block : Nat} (hBlock : block ∈ around) :
    block ∈ step.scope := by
  obtain ⟨scope, act⟩ := step
  cases act with
  | declare n name =>
      obtain rfl := List.mem_singleton.mp hMentions
      exact scope_eq_of_declare hOrder hDeclare hStep ▸ hBlock
  | set n name source =>
      obtain rfl := List.mem_singleton.mp hMentions
      obtain ⟨other, hHere⟩ := (hPlaced _ hStep).sets d name source rfl
      exact scope_eq_of_declare hOrder hDeclare hHere ▸ hBlock
  | push p c =>
      obtain ⟨outer, above, other, hParent, hScope, hChild⟩ := (hPlaced _ hStep).pushes p c rfl
      have hOne : d = p ∨ d = c := by simpa [Act.variables] using hMentions
      rcases hOne with rfl | rfl
      · rw [scope_eq_of_declare hOrder hDeclare hParent] at hBlock
        exact hScope ▸ List.mem_cons_of_mem c hBlock
      · exact scope_eq_of_declare hOrder hDeclare hChild ▸ hBlock
  | opening head => cases hMentions
  | closing => cases hMentions

/-- What holds of any two steps holds of one and those around it. -/
theorem inOrder_around {before after : List Step} {here : Step}
    (h : (before ++ here :: after).Pairwise InOrder) :
    (∀ step ∈ before, InOrder step here) ∧ ∀ step ∈ after, InOrder here step := by
  obtain ⟨-, hBack, hAcross⟩ := List.pairwise_append.mp h
  exact ⟨fun step hMem => hAcross step hMem here List.mem_cons_self,
    (List.pairwise_cons.mp hBack).1⟩

/-- Steps in order and in their places, which declare the elements of a document and push
them, keep to the discipline. -/
theorem disciplined_of_inOrder {document : Document} (hOrder : steps.Pairwise InOrder)
    (hPlaced : ∀ step ∈ steps, Placed steps step)
    (hDeclared : steps.filterMap Step.declared? = numbered 0 document.tags)
    (hPushed : (steps.filterMap Step.pushed?).Perm document.edges)
    (hBalanced : Balanced (steps.map Step.act)) : Disciplined document steps where
  declared := hDeclared
  sets := by
    rintro before after scope n name source rfl
    obtain ⟨hBefore, hAfter⟩ := inOrder_around hOrder
    constructor
    · obtain ⟨tag, hDeclare⟩ := (hPlaced ⟨scope, .set n name source⟩ (by simp)).sets n name source rfl
      refine ⟨scope, tag, mem_before hDeclare nofun fun hLater => ?_⟩
      exact Nat.lt_irrefl n (hAfter _ hLater n tag rfl)
    · rintro c hEdge ⟨around, tag, hDeclare⟩
      exact Nat.not_le_of_lt (lt_of_mem_edgesAll Nat.zero_lt_one hEdge)
        ((hBefore _ hDeclare).2 n name source rfl)
  pushed := hPushed
  behind := by
    rintro before after scope p c rfl
    have hPush : ⟨scope, .push p c⟩ ∈ before ++ ⟨scope, .push p c⟩ :: after := by simp
    have hLeft : ∀ step ∈ after, c ∉ step.scope := fun step hLater =>
      ((inOrder_around hOrder).2 step hLater).1
    refine ⟨hLeft, fun d hBelow => ?_⟩
    -- whatever mentions `d` stands in the block of `c`, which is left behind the push
    obtain ⟨around, tag, hDeclare, hMem⟩ :=
      exists_declare_of_below hOrder hPlaced hPushed hPush hBelow
    refine ⟨⟨around, tag, mem_before hDeclare nofun fun hLater => hLeft _ hLater hMem⟩, ?_⟩
    intro step hLater hMentions
    exact hLeft step hLater
      (mem_scope_of_mentions hOrder hPlaced hDeclare (by simp [hLater]) hMentions hMem)
  inside := by
    intro scope p c hPush
    obtain ⟨outer, above, tag, hParent, hScope, hDeclare⟩ := (hPlaced _ hPush).pushes p c rfl
    exact ⟨outer, above, tag, hScope, hParent, hDeclare⟩
  siblings := by
    refine hOrder.filterMap _ fun step later hHere => ?_
    rintro ⟨p, c⟩ hPush ⟨p', d⟩ hLater rfl
    rw [pushed?_eq_some.mp hPush] at hHere
    exact hHere.2 d (congrArg Step.act (pushed?_eq_some.mp hLater))
  balanced := hBalanced

end

/-- **The program for a document keeps to the discipline.** -/
theorem disciplined_program {options : Options} {document : Document} {plan : Plan}
    (h : Plan.ofDocument options document = .ok plan) :
    Disciplined document (stepsOf plan.program) := by
  obtain ⟨classified, children, -, hChildren, rfl⟩ := ofDocument_ok h
  have hBalanced : Balanced ((stepsOf (Plan.element document.root classified children).program).map
      Step.act) := by
    rw [stepsOf, map_act_stepsFrom]
    exact balanced_actsAll _
  have hRoot : ⟨[], .declare 0 document.root.name⟩ ∈
      builtSteps 0 [] document.root classified children :=
    List.mem_append_left _ List.mem_cons_self
  rw [steps_program] at hBalanced ⊢
  refine disciplined_of_inOrder ?_ ?_ ?_ ?_ hBalanced
  · exact inOrder_builtSteps (inOrder_traceAll children Nat.zero_lt_one
      fun block hMem => absurd hMem List.not_mem_nil)
  · exact List.forall_mem_append.mpr ⟨placed_ownSteps hRoot,
      placed_traceAll children hRoot fun step hMem => List.mem_append_right _ hMem⟩
  · rw [declared_builtSteps, declared_traceAll hChildren, Document.tags_eq, numbered_cons]
  · rw [pushed_builtSteps]
    exact pushed_traceAll hChildren 0 1 []

/-! ## Compilations -/

/-- **Compiled programs are disciplined.** The body of the function that a document is
compiled to consists of the lines of the steps of its program and, at its end, of the
variable of the root element. The steps keep to the discipline, and every block that a
line of the code opens is closed. The elements of the document but its root are numbered
from one on, and each lies in one other.

A handler is set in several lines. One of them copies the host, within the block of the
handler; it declares no node and belongs to the property that is set. -/
theorem compile_disciplined {options : Options} {host source : String} {view : View}
    (h : compile options host source = .ok view) :
    ∃ document plan, Document.read source = .ok document ∧
      Plan.ofDocument options document = .ok plan ∧
      document.edges.map Prod.snd = List.range' 1 (document.tags.length - 1) ∧
      Disciplined document (stepsOf plan.program) ∧
      ∃ lines, view.source = renderLines lines ∧ Nested lines ∧
        lines = frontLines options none host view.moduleName document ++
          ((stepsOf plan.program).flatMap (Step.lines options.runtimePath 3) ++
            [⟨3, variableName 0⟩]) ++ backLines := by
  obtain ⟨document, plan, hRead, hPlan, hSource⟩ := exists_plan_of_compile h
  have hLast : ¬ (Line.mk 3 (variableName 0)).Opens := by
    rw [variableName, opens_append_iff 3 _ (by decide)]
    decide
  have hBody : Nested (bodyLines options plan) :=
    (nested_linesAll options.runtimePath 3 plan.program).append (.plain hLast .nil)
  refine ⟨document, plan, hRead, hPlan, edges_children document,
    disciplined_program hPlan, _, hSource,
    nested_moduleLines options none host view.moduleName document hBody, ?_⟩
  rw [← lines_steps]
  rfl

/-- A page with two rows, of which one is a loop with a cell in it. -/
theorem compile_disciplined_rows :
    let source := "<page><row _foreach='x of xs'><cell _click='f()'/></row><row name='r'/></page>"
    ∃ view document plan, compile .standard "Host" source = .ok view ∧
      document.edges = [(0, 1), (1, 2), (0, 3)] ∧
      Disciplined document (stepsOf (Plan.program plan)) ∧
      ∃ lines, view.source = renderLines lines ∧ Nested lines := by
  intro source
  have hEdges : (Document.read source).toOption.map (fun document => (document.edges,
      document.tags.all fun tag => (fault? .standard tag).isNone)) =
      some ([(0, 1), (1, 2), (0, 3)], true) := by decide +kernel
  have hHost : (Code.typeName? "Host").isSome = true := by decide +kernel
  obtain ⟨document, hRead, hDocument⟩ := exists_ok_of_map hEdges
  obtain ⟨hShape, hTags⟩ := Prod.mk.inj hDocument
  obtain ⟨view, hCompile⟩ := exists_compile hHost hRead fun tag hMem =>
    fault?_eq_none_iff.mp (Option.isNone_iff_eq_none.mp (List.all_eq_true.mp hTags tag hMem))
  obtain ⟨other, plan, hOther, -, -, hDisciplined, lines, hSource, hNested, -⟩ :=
    compile_disciplined hCompile
  obtain rfl : document = other := Except.ok.inj (hRead.symm.trans hOther)
  exact ⟨view, document, plan, hCompile, hShape, hDisciplined, lines, hSource, hNested⟩

end Template

end LiveMarkup
