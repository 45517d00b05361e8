import LiveMarkup.Proofs.Template.Meaning

/-!
# Generated code builds the view that the document describes

The program of a plan is run, statement by statement, and the tree that it
leaves in variable zero is the meaning of the document. Nodes are built in
variables whose numbers ascend, so a variable is hidden by nothing but the item
of a loop, and it is asked that no item is named like a variable.

## Main results

* `run_sets` — the bindings of an element set its properties.
* `run_block` — a block pushes the trees of its rounds, in order.
* `run_buildAll` — the statements for the children of a node push what the
  children mean.
* `compile_correct` — **the code is the text of a program that builds the view**.
-/

namespace LiveMarkup.Template

open Markup (Tag Node Document)

variable {I H : Type}

/-- No loop on the elements among nodes and below them binds its item to the
name of a variable. With the plain reading of items this is more than what uses of
variables take to resolve (`resolves_of_itemsApart`). -/
def ItemsApart (interp : Interpretation I H) (nodes : List Node) : Prop :=
  ∀ loop ∈ loopsOf nodes, ∀ n, interp.itemName loop.item ≠ variableName n

namespace Scope

@[simp] theorem items_tree (name : String) (tree : VirtualTree H) (scope : Scope I H) :
    items ((name, .tree tree) :: scope) = items scope := rfl

theorem items_bound (round : Items I) (scope : Scope I H) :
    items (round.bound ++ scope) = round ++ items scope := by
  induction round with
  | nil => rfl
  | cons entry rest ih =>
      rw [List.cons_append, ← ih]
      rfl

end Scope

/-! ## The statements for one element -/

/-- Setting a property changes the tree in the innermost variable. -/
theorem run_set (interp : Interpretation I H) (n : Nat) (name : String) (source : Source)
    (tree : VirtualTree H) (scope : Scope I H) :
    Statement.run interp (.set n name source) ((variableName n, .tree tree) :: scope) =
      some ((variableName n, .tree (tree.set name (source.value interp scope.items))) :: scope) := by
  rw [Statement.run, Scope.tree?_cons_self]
  simp only [Option.bind_eq_bind, Option.bind_some, Scope.assign_cons_self, Scope.items_tree]
  rfl

/-- **The bindings of an element set its properties**, one after the other. -/
theorem run_sets (interp : Interpretation I H) (n : Nat) (bindings : List Binding) (tag : String)
    (properties : Properties H) (children : List (VirtualTree H)) (scope : Scope I H) :
    Statement.runAll interp (bindings.map fun b => .set n b.source.1 b.source.2)
        ((variableName n, .tree (.node tag properties children)) :: scope) =
      some ((variableName n, .tree (.node tag
        ((bindings.map fun b => (b.source.1, b.source.2.value interp scope.items)).foldl
          (fun p entry => p.set entry.1 entry.2) properties) children)) :: scope) := by
  induction bindings generalizing properties with
  | nil => rfl
  | cons binding rest ih =>
      rw [List.map_cons, Statement.runAll, run_set]
      simp only [Option.bind_eq_bind, Option.bind_some]
      exact ih _

/-- The statements for an element build its tree in a new variable, where those
for its children push what these mean. -/
theorem run_build {interp : Interpretation I H} {options : Options} {tag : Tag}
    {content : List Node} {classified : Classified} {children : List Plan} {next : Nat}
    (hTag : classify options tag = .ok classified) (scope : Scope I H)
    (hChildren : ∀ properties,
      Statement.runAll interp (Plan.buildAll next (next + 1) children)
          ((variableName next, .tree (.node tag.name properties [])) :: scope) =
        some ((variableName next, .tree (.node tag.name properties
          (Meaning.ofNodes interp options content scope.items))) :: scope)) :
    Statement.runAll interp (Plan.build next (.element tag classified children)) scope =
      some ((variableName next, .tree (.node tag.name
        (Meaning.properties interp options scope.items tag.attributes)
        (Meaning.ofNodes interp options content scope.items))) :: scope) := by
  rw [Plan.build, List.cons_append, Statement.runAll, Statement.run]
  simp only [Option.bind_eq_bind, Option.bind_some]
  rw [runAll_append, VirtualTree.leaf, run_sets, Option.bind_some, hChildren]
  rw [← properties_of_bindings hTag]
  rfl

/-! ## Blocks -/

/-- Pushing moves the tree of the innermost variable into one further out. -/
theorem run_push (interp : Interpretation I H) {parent child : Nat} (hNe : child ≠ parent)
    {round : Scope I H} (hApart : ∀ entry ∈ round, entry.1 ≠ variableName parent)
    (pushed tree : VirtualTree H) (scope : Scope I H) :
    Statement.run interp (.push parent child)
        ((variableName child, .tree pushed) ::
          (round ++ (variableName parent, .tree tree) :: scope)) =
      some ((variableName child, .moved) ::
        (round ++ (variableName parent, .tree (tree.push pushed)) :: scope)) := by
  have hNames : variableName child ≠ variableName parent := fun h => hNe (variableName_inj h)
  rw [Statement.run, Scope.tree?_cons_self]
  simp only [Option.bind_eq_bind, Option.bind_some, Scope.assign_cons_self]
  rw [Scope.tree?_cons_ne hNames, Scope.tree?_append hApart, Scope.tree?_cons_self,
    Option.bind_some, Scope.assign_cons_ne hNames, Scope.assign_append hApart,
    Scope.assign_cons_self]
  rfl

/-- The names that are bound on entering a block are none of variables. -/
theorem rounds_apart {interp : Interpretation I H} {items : Items I} {head : Head}
    (hHead : ∀ loop, head = .each loop → ∀ n, interp.itemName loop.item ≠ variableName n)
    {round : Items I} (hRound : round ∈ head.rounds interp items) (n : Nat) :
    ∀ entry ∈ (round.bound : Scope I H), entry.1 ≠ variableName n := by
  intro entry hEntry
  obtain ⟨bound, hBound, rfl⟩ := List.mem_map.mp hEntry
  cases head with
  | once =>
      obtain rfl := List.mem_singleton.mp hRound
      cases hBound
  | when condition =>
      rw [Head.rounds] at hRound
      split at hRound
      · obtain rfl := List.mem_singleton.mp hRound
        cases hBound
      · cases hRound
  | each loop =>
      obtain ⟨item, -, rfl⟩ := List.mem_map.mp hRound
      obtain rfl := List.mem_singleton.mp hBound
      exact hHead loop rfl n

/-- **A block pushes the trees of its rounds, in order.** The body of a round
builds `made` of the items in scope in variable `child`. -/
theorem run_block {interp : Interpretation I H} {parent child : Nat} (hNe : child ≠ parent)
    {head : Head} {body : List Statement} (made : Items I → VirtualTree H)
    (hHead : ∀ loop, head = .each loop → ∀ n, interp.itemName loop.item ≠ variableName n)
    (hBody : ∀ scope : Scope I H, Statement.runAll interp body scope =
      some ((variableName child, .tree (made scope.items)) :: scope))
    (tag : String) (properties : Properties H) (trees : List (VirtualTree H)) (scope : Scope I H) :
    Statement.run interp (.block head (body ++ [.push parent child]))
        ((variableName parent, .tree (.node tag properties trees)) :: scope) =
      some ((variableName parent, .tree (.node tag properties
        (trees ++ (head.rounds interp scope.items).map fun round =>
          made (round ++ scope.items)))) :: scope) := by
  rw [Statement.run, Scope.items_tree]
  have hRounds : ∀ round ∈ head.rounds interp scope.items, ∀ n,
      ∀ entry ∈ (round.bound : Scope I H), entry.1 ≠ variableName n :=
    fun round hRound => rounds_apart hHead hRound
  generalize head.rounds interp scope.items = rounds at hRounds
  -- The scope is the same after every round, but for the trees pushed so far.
  induction rounds generalizing trees with
  | nil => simp
  | cons round rest ih =>
      have hApart := hRounds round (by simp) parent
      have hRound : Statement.runAll interp (body ++ [.push parent child])
          (round.bound ++ (variableName parent, .tree (.node tag properties trees)) :: scope) =
          some ((variableName child, .moved) :: (round.bound ++ (variableName parent,
            .tree (.node tag properties (trees ++ [made (round ++ scope.items)]))) :: scope)) := by
        rw [runAll_append, hBody, Option.bind_some, Statement.runAll, Scope.items_bound,
          Scope.items_tree, run_push interp hNe hApart]
        rfl
      rw [List.foldlM_cons, hRound]
      simp only [Option.bind_eq_bind, Option.bind_some]
      have hLeave : Scope.leave ((variableName parent, .tree (.node tag properties trees)) :: scope)
          ((variableName child, .moved) :: (round.bound ++ (variableName parent,
            .tree (.node tag properties (trees ++ [made (round ++ scope.items)]))) :: scope)) =
          (variableName parent,
            .tree (.node tag properties (trees ++ [made (round ++ scope.items)]))) :: scope :=
        Scope.leave_append ((variableName child, .moved) :: (round.bound : Scope I H)) rfl
      rw [hLeave]
      have hRest := ih (trees ++ [made (round ++ scope.items)])
        fun other hMem => hRounds other (by simp [hMem])
      rw [List.append_assoc, List.singleton_append] at hRest
      exact hRest

/-! ## Whole programs -/

theorem itemsApart_element {interp : Interpretation I H} {tag : Tag} {content rest : List Node}
    (h : ItemsApart interp (.element tag content :: rest)) :
    (∀ loop, loop? tag.attributes = some loop → ∀ n, interp.itemName loop.item ≠ variableName n) ∧
      ItemsApart interp content ∧ ItemsApart interp rest := by
  have hTags : Node.tagsAll (.element tag content :: rest) =
      tag :: (Node.tagsAll content ++ Node.tagsAll rest) := by
    rw [Node.tagsAll, Node.tags, List.cons_append]
  rw [ItemsApart, loopsOf, hTags] at h
  refine ⟨fun loop hLoop => h loop ?_, fun loop hLoop => h loop ?_, fun loop hLoop => h loop ?_⟩
  · exact List.mem_filterMap.mpr ⟨tag, by simp, hLoop⟩
  · obtain ⟨inner, hInner, hEq⟩ := List.mem_filterMap.mp hLoop
    exact List.mem_filterMap.mpr ⟨inner, by simp [hInner], hEq⟩
  · obtain ⟨inner, hInner, hEq⟩ := List.mem_filterMap.mp hLoop
    exact List.mem_filterMap.mpr ⟨inner, by simp [hInner], hEq⟩

theorem itemsApart_skip {interp : Interpretation I H} {node : Node} {rest : List Node}
    (hNode : node.isElement = false) (h : ItemsApart interp (node :: rest)) :
    ItemsApart interp rest := by
  rw [ItemsApart, loopsOf, tags_skip hNode] at h
  exact h

/-- The loop of a block is the loop of its element. -/
theorem loop?_of_head {options : Options} {tag : Tag} {classified : Classified} {loop : Loop}
    (hTag : classify options tag = .ok classified)
    (hHead : Head.ofDirective classified.directive = .each loop) :
    loop? tag.attributes = some loop := by
  rw [classify_directive hTag] at hHead
  cases hLoop : loop? tag.attributes with
  | some other =>
      rw [hLoop] at hHead
      have hEq : other = loop := by simpa [Head.ofDirective] using hHead
      rw [hEq]
  | none =>
      rw [hLoop] at hHead
      cases hCondition : condition? tag.attributes <;> simp [hCondition, Head.ofDirective] at hHead

/-- **The statements for the children of a node push what the children mean.** -/
theorem run_buildAll (interp : Interpretation I H) (options : Options) :
    (nodes : List Node) → (plans : List Plan) → (parent next : Nat) → (tag : String) →
    (properties : Properties H) → (trees : List (VirtualTree H)) → (scope : Scope I H) →
    Plan.ofNodes options nodes = .ok plans → parent < next → ItemsApart interp nodes →
    Statement.runAll interp (Plan.buildAll parent next plans)
        ((variableName parent, .tree (.node tag properties trees)) :: scope) =
      some ((variableName parent, .tree (.node tag properties
        (trees ++ Meaning.ofNodes interp options nodes scope.items))) :: scope)
  | [], plans, parent, next, tag, properties, trees, scope, hPlans, hLt, hApart => by
      rw [Plan.ofNodes, Except.ok.injEq] at hPlans
      subst hPlans
      rw [Plan.buildAll, Statement.runAll, Meaning.ofNodes, List.append_nil]
  | .element inner content :: rest, plans, parent, next, tag, properties, trees, scope, hPlans,
      hLt, hApart => by
      obtain ⟨classified, children, others, hTag, hChildren, hRest, rfl⟩ :=
        ofNodes_element_ok hPlans
      obtain ⟨hLoop, hContent, hOthers⟩ := itemsApart_element hApart
      -- The body of the block builds the element, in whatever scope it is entered.
      have hBuild : ∀ scope : Scope I H, Statement.runAll interp
          (Plan.build next (.element inner classified children)) scope =
          some ((variableName next, .tree (.node inner.name
            (Meaning.properties interp options scope.items inner.attributes)
            (Meaning.ofNodes interp options content scope.items))) :: scope) := fun scope =>
        run_build hTag scope fun fresh =>
          run_buildAll interp options content children next (next + 1) inner.name fresh [] scope
            hChildren (Nat.lt_succ_self next) hContent
      have hHead : ∀ loop, Head.ofDirective classified.directive = .each loop →
          ∀ n, interp.itemName loop.item ≠ variableName n := fun loop hEq =>
        hLoop loop (loop?_of_head hTag hEq)
      have hNe : next ≠ parent := by omega
      have hBlock := run_block hNe
        (fun items => .node inner.name (Meaning.properties interp options items inner.attributes)
          (Meaning.ofNodes interp options content items)) hHead hBuild tag properties trees scope
      have hTrees : ((Head.ofDirective classified.directive).rounds interp scope.items).map
          (fun round => VirtualTree.node inner.name
            (Meaning.properties interp options (round ++ scope.items) inner.attributes)
            (Meaning.ofNodes interp options content (round ++ scope.items))) =
          Meaning.ofNode interp options (.element inner content) scope.items := by
        rw [Meaning.ofNode, ← rounds_ofDirective hTag, List.map_map]
        rfl
      rw [hTrees] at hBlock
      rw [Plan.buildAll, Statement.runAll, Plan.classified, hBlock]
      simp only [Option.bind_eq_bind, Option.bind_some]
      rw [run_buildAll interp options rest others parent _ tag properties _ scope hRest
        (by omega) hOthers, Meaning.ofNodes, List.append_assoc]
  | .text _ _ :: rest, plans, parent, next, tag, properties, trees, scope, hPlans, hLt, hApart => by
      rw [ofNodes_skip options rfl] at hPlans
      rw [Meaning.ofNodes_skip interp options rfl]
      exact run_buildAll interp options rest plans parent next tag properties trees scope hPlans
        hLt (itemsApart_skip rfl hApart)
  | .comment _ _ :: rest, plans, parent, next, tag, properties, trees, scope, hPlans, hLt,
      hApart => by
      rw [ofNodes_skip options rfl] at hPlans
      rw [Meaning.ofNodes_skip interp options rfl]
      exact run_buildAll interp options rest plans parent next tag properties trees scope hPlans
        hLt (itemsApart_skip rfl hApart)
  | .instruction _ _ _ :: rest, plans, parent, next, tag, properties, trees, scope, hPlans, hLt,
      hApart => by
      rw [ofNodes_skip options rfl] at hPlans
      rw [Meaning.ofNodes_skip interp options rfl]
      exact run_buildAll interp options rest plans parent next tag properties trees scope hPlans
        hLt (itemsApart_skip rfl hApart)

/-- **The program of a plan builds the view that the document describes.** -/
theorem runBody_program {interp : Interpretation I H} {options : Options} {document : Document}
    {plan : Plan} (hPlan : Plan.ofDocument options document = .ok plan)
    (hApart : ItemsApart interp document.content) :
    runBody interp plan.program = some (Meaning.ofDocument interp options document) := by
  obtain ⟨classified, children, hRoot, hChildren, rfl⟩ := ofDocument_ok hPlan
  have hBuild := run_build hRoot [] fun fresh =>
    run_buildAll interp options document.content children 0 1 document.root.name fresh [] []
      hChildren Nat.zero_lt_one hApart
  rw [runBody, Plan.program, hBuild]
  simp only [Option.bind_eq_bind, Option.bind_some, Scope.tree?_cons_self]
  rfl

/-! ## The text of a program -/

/-- The lines of a module in front of the body of its function. -/
def frontLines (options : Options) (origin : Option String) (host name : String)
    (document : Document) : List Line :=
  [originLine origin, ⟨0, "#[allow(unused_imports)]"⟩, ⟨0, "mod " ++ name ++ " \x7b"⟩,
    ⟨1, "use super::*;"⟩]
    ++ importLines document
    ++ [⟨0, ""⟩,
      ⟨1, "impl " ++ options.runtimePath ++ "::Rebuild for " ++ host ++ " \x7b"⟩,
      ⟨2, "#[allow(unused_mut, unused_parens, unused_braces, unused_variables, "
        ++ "redundant_semicolons, clippy::all)]"⟩,
      ⟨2, "fn build_virtual_tree(&self) -> " ++ options.runtimePath ++ "::VNode \x7b"⟩]

/-- The lines of a module behind the body of its function. -/
def backLines : List Line :=
  [⟨2, "\x7d"⟩, ⟨1, "\x7d"⟩, ⟨0, "\x7d"⟩]

/-- A text that compiles holds a document with a plan, which is what is rendered. -/
theorem exists_plan_of_compile {options : Options} {host source : String} {view : View}
    (h : compile options host source = .ok view) :
    ∃ document plan, Document.read source = .ok document ∧
      Plan.ofDocument options document = .ok plan ∧
      view.source = renderLines (moduleLines options none host view.moduleName document plan) := by
  unfold compile compilation at h
  split at h
  · cases h
  · rename_i identifier hHost
    cases hRead : Document.read source with
    | error e =>
        rw [hRead] at h
        cases h
    | ok document =>
        rw [hRead] at h
        simp only [compileDocument] at h
        cases hPlan : Plan.ofDocument options document with
        | error e =>
            rw [hPlan] at h
            cases h
        | ok plan =>
            rw [hPlan] at h
            cases h
            exact ⟨document, plan, rfl, hPlan, rfl⟩

/-- **The code is the text of a program that builds the view.** Whatever the
texts mean that are copied from the markup: where no item of a loop is named
like a variable, running the program gives the virtual tree that the document
describes. -/
theorem compile_correct {options : Options} {host source : String} {view : View}
    (hCompile : compile options host source = .ok view) :
    ∃ document program, Document.read source = .ok document ∧
      view.source = renderLines (frontLines options none host view.moduleName document
        ++ (Statement.linesAll options.runtimePath 3 program ++ [⟨3, variableName 0⟩])
        ++ backLines) ∧
      ∀ {I H : Type} (interp : Interpretation I H), ItemsApart interp document.content →
        runBody interp program = some (Meaning.ofDocument interp options document) := by
  obtain ⟨document, plan, hRead, hPlan, hSource⟩ := exists_plan_of_compile hCompile
  refine ⟨document, plan.program, hRead, hSource, ?_⟩
  intro I H interp hApart
  exact runBody_program hPlan hApart

/-- A page with a row for every item of a collection, run where that has two items. -/
theorem compile_correct_rows :
    let source := "<page title='p'><row _foreach='x of xs' _label='x'/><!-- end --></page>"
    let interp : Interpretation String Unit :=
      ⟨id, fun _ _ => true, fun _ _ => ["one", "two"],
        fun items _ => .text ((items.map Prod.snd).headD ""), fun _ _ => ()⟩
    ∃ view document program, compile .standard "Host" source = .ok view ∧
      ItemsApart interp document.content ∧
      view.source = renderLines (frontLines .standard none "Host" view.moduleName document
        ++ (Statement.linesAll "::trellis_runtime" 3 program ++ [⟨3, variableName 0⟩])
        ++ backLines) ∧
      runBody interp program = some (Meaning.ofDocument interp .standard document) := by
  intro source interp
  have hChecks : (Document.read source).toOption.map (fun document =>
      (document.tags.all fun tag => (classify .standard tag).toOption.isSome,
        loopsOf document.content)) = some (true, [⟨"x", "xs"⟩]) := by decide +kernel
  cases hRead : Document.read source with
  | error e =>
      rw [hRead] at hChecks
      cases hChecks
  | ok document =>
      rw [hRead] at hChecks
      simp only [Except.toOption, Option.map_some, Option.some.injEq, Prod.mk.injEq,
        List.all_eq_true] at hChecks
      have hTags : ∀ tag ∈ document.tags, ∃ classified,
          classify .standard tag = .ok classified := by
        intro tag hMem
        have hSome := hChecks.1 tag hMem
        cases hTag : classify .standard tag with
        | error e => simp [hTag] at hSome
        | ok classified => exact ⟨classified, rfl⟩
      have hApart : ItemsApart interp document.content := by
        intro loop hLoop n hEq
        rw [hChecks.2, List.mem_singleton] at hLoop
        subst hLoop
        have hChars := congrArg String.toList hEq
        simp [interp, variableName] at hChars
      have hHost : (Code.typeName? "Host").isSome = true := by decide +kernel
      obtain ⟨view, hCompile⟩ := exists_compile hHost hRead hTags
      obtain ⟨document', program, hRead', hSource, hRun⟩ := compile_correct hCompile
      obtain rfl : document = document' := by
        rw [hRead, Except.ok.injEq] at hRead'
        exact hRead'
      exact ⟨view, document, program, hCompile, hApart, hSource, hRun interp hApart⟩

end LiveMarkup.Template
