import LiveMarkup.Proofs.Markup.Equality
import LiveMarkup.Proofs.Template.Faults

/-!
# Only elements matter

The code for a document depends on its imports and on its elements: their names,
their attributes and how they are nested. Character data, comments and
instructions between them leave no trace in it, and neither do the lines that
elements stand on; a line is only told in a diagnostic or an error.

`unplaced` takes the lines away, from tags as well as from all that is made of
them, and `Node.elementsOf` leaves nothing of content but its elements. The steps
of a compilation are shown to commute with the two, so that documents that look
alike without lines and without what stands between elements are compiled alike.

## Main results

* `classify_unplaced`, `ofNodes_unplaced`, `ofDocument_unplaced` — the plan of what
  is left of a document is the plan of the document, but for lines.
* `build_unplaced`, `documentDiagnostics_unplaced` — what the code and the
  diagnostics of a plan owe to its lines.
* `compile_of_same_elements` — **only elements matter to the code**.
-/

namespace LiveMarkup

namespace Markup

/-- The opening of an element, on no line in particular. -/
def Tag.unplaced (tag : Tag) : Tag :=
  { tag with line := 0 }

/-- The elements among pieces of content, with the elements in them, and without
lines. -/
def Node.elementsOf : List Node → List Node
  | [] => []
  | .element tag content :: rest => .element tag.unplaced (elementsOf content) :: elementsOf rest
  | .text _ _ :: rest => elementsOf rest
  | .comment _ _ :: rest => elementsOf rest
  | .instruction _ _ _ :: rest => elementsOf rest

theorem Node.elementsOf_skip {node : Node} (hNode : node.isElement = false) (rest : List Node) :
    elementsOf (node :: rest) = elementsOf rest := by
  cases node with
  | element tag content => cases hNode
  | text line data => rw [elementsOf]
  | comment line body => rw [elementsOf]
  | instruction line target data => rw [elementsOf]

/-- The root element of a document with the elements in it, and without lines. -/
def Document.elements (document : Document) : Node :=
  .element document.root.unplaced (Node.elementsOf document.content)

end Markup

namespace Template

open Markup (Tag Node Document)

/-! ## What has a line -/

def DroppedLoop.unplaced (dropped : DroppedLoop) : DroppedLoop :=
  { dropped with line := 0 }

def Diagnostic.unplaced (diagnostic : Diagnostic) : Diagnostic :=
  { diagnostic with line := 0 }

def Classified.unplaced (classified : Classified) : Classified :=
  { classified with dropped := classified.dropped.map DroppedLoop.unplaced }

def DirectiveError.unplaced : DirectiveError → DirectiveError
  | malformed loop => malformed loop.unplaced
  | conflicting element _ => conflicting element 0

/-- The error on no line in particular. A fault of the markup keeps its position. -/
def CompileError.unplaced : CompileError → CompileError
  | malformedDirective loop => malformedDirective loop.unplaced
  | conflictingDirectives element _ => conflictingDirectives element 0
  | e => e

/-- A result without lines, where `f` takes them away from what there is if nothing
is wrong. -/
def unplacedResult {α : Type} (f : α → α) : Except DirectiveError α → Except DirectiveError α
  | .ok a => .ok (f a)
  | .error e => .error e.unplaced

mutual

def Plan.unplaced : Plan → Plan
  | element tag classified children =>
    element tag.unplaced classified.unplaced (Plan.unplacedAll children)

def Plan.unplacedAll : List Plan → List Plan
  | [] => []
  | plan :: rest => Plan.unplaced plan :: Plan.unplacedAll rest

end

/-- **An element means the same on every line.** -/
theorem classify_unplaced (options : Options) (tag : Tag) :
    classify options tag.unplaced =
      unplacedResult Classified.unplaced (classify options tag) := by
  unfold classify Tag.unplaced
  cases loopAttribute? tag.attributes with
  | none => rfl
  | some a =>
      cases hRead : Loop.read? a.value with
      | none =>
          simp only [hRead]
          cases options.strictDirectives with
          | true => rfl
          | false => rfl
      | some loop =>
          simp only [hRead]
          cases condition? tag.attributes with
          | none => rfl
          | some condition => rfl

/-! ## Plans -/

/-- **The plan of what is left of content is the plan of the content**, but for
lines. -/
theorem ofNodes_unplaced (options : Options) (nodes : List Node) :
    Plan.ofNodes options (Node.elementsOf nodes) =
      unplacedResult Plan.unplacedAll (Plan.ofNodes options nodes) := by
  induction nodes using Node.induction_elements with
  | nil =>
      rw [Node.elementsOf, Plan.ofNodes]
      rfl
  | skip node rest hNode ih =>
      rw [Node.elementsOf_skip hNode, ofNodes_skip options hNode]
      exact ih
  | element tag content rest ihContent ihRest =>
      rw [Node.elementsOf, Plan.ofNodes, Plan.ofNodes, classify_unplaced, ihContent, ihRest]
      -- The first of the three that fails decides both sides.
      cases classify options tag with
      | error e => rfl
      | ok classified =>
          cases Plan.ofNodes options content with
          | error e => rfl
          | ok children =>
              cases Plan.ofNodes options rest with
              | error e => rfl
              | ok others => rfl

theorem ofDocument_unplaced (options : Options) (document : Document) :
    (do
      let classified ← classify options document.root.unplaced
      let children ← Plan.ofNodes options (Node.elementsOf document.content)
      return Plan.element document.root.unplaced classified children) =
      unplacedResult Plan.unplaced (Plan.ofDocument options document) := by
  rw [classify_unplaced, ofNodes_unplaced, Plan.ofDocument]
  cases classify options document.root with
  | error e => rfl
  | ok classified =>
      cases Plan.ofNodes options document.content with
      | error e => rfl
      | ok children => rfl

/-- Documents with the same elements have the same plan, but for lines. -/
theorem ofDocument_of_same_elements (options : Options) {document other : Document}
    (h : document.elements = other.elements) :
    unplacedResult Plan.unplaced (Plan.ofDocument options document) =
      unplacedResult Plan.unplaced (Plan.ofDocument options other) := by
  have hRoot : document.root.unplaced = other.root.unplaced := (Node.element.inj h).1
  have hContent : Node.elementsOf document.content = Node.elementsOf other.content :=
    (Node.element.inj h).2
  rw [← ofDocument_unplaced, ← ofDocument_unplaced, hRoot, hContent]

/-! ## Code -/

theorem tag_name_unplaced (tag : Tag) : tag.unplaced.name = tag.name := rfl

theorem bindings_unplaced (classified : Classified) :
    classified.unplaced.bindings = classified.bindings := rfl

theorem directive_unplaced (plan : Plan) :
    plan.unplaced.classified.directive = plan.classified.directive := by
  cases plan
  rfl

mutual

theorem size_unplaced : (plan : Plan) → plan.unplaced.size = plan.size
  | .element tag classified children => by
      rw [Plan.unplaced, Plan.size, Plan.size, sizeAll_unplacedAll children]

theorem sizeAll_unplacedAll : (plans : List Plan) →
    Plan.sizeAll (Plan.unplacedAll plans) = Plan.sizeAll plans
  | [] => rfl
  | plan :: rest => by
      rw [Plan.unplacedAll, Plan.sizeAll, Plan.sizeAll, size_unplaced plan,
        sizeAll_unplacedAll rest]

end

mutual

/-- **The statements that build an element tell no lines.** -/
theorem build_unplaced (next : Nat) : (plan : Plan) → plan.unplaced.build next = plan.build next
  | .element tag classified children => by
      rw [Plan.unplaced, Plan.build, Plan.build, tag_name_unplaced, bindings_unplaced,
        buildAll_unplacedAll next (next + 1) children]

theorem buildAll_unplacedAll (parent next : Nat) : (plans : List Plan) →
    Plan.buildAll parent next (Plan.unplacedAll plans) = Plan.buildAll parent next plans
  | [] => rfl
  | plan :: rest => by
      rw [Plan.unplacedAll, Plan.buildAll, Plan.buildAll, directive_unplaced,
        build_unplaced next plan, size_unplaced, buildAll_unplacedAll parent _ rest]

end

/-- Plans that are the same but for lines have the same program. -/
theorem program_of_unplaced {plan other : Plan} (h : plan.unplaced = other.unplaced) :
    plan.program = other.program := by
  rw [Plan.program, Plan.program, ← build_unplaced 0 plan, h, build_unplaced]

/-! ## Diagnostics -/

theorem diagnostics_classified_unplaced (classified : Classified) :
    classified.unplaced.diagnostics = classified.diagnostics.map Diagnostic.unplaced := by
  unfold Classified.diagnostics Classified.unplaced
  cases classified.dropped with
  | none => rfl
  | some loop => rfl

mutual

theorem diagnostics_unplaced : (plan : Plan) →
    plan.unplaced.diagnostics = plan.diagnostics.map Diagnostic.unplaced
  | .element tag classified children => by
      rw [Plan.unplaced, Plan.diagnostics, Plan.diagnostics, List.map_append,
        diagnostics_classified_unplaced, diagnosticsAll_unplacedAll children]

theorem diagnosticsAll_unplacedAll : (plans : List Plan) →
    Plan.diagnosticsAll (Plan.unplacedAll plans) =
      (Plan.diagnosticsAll plans).map Diagnostic.unplaced
  | [] => rfl
  | plan :: rest => by
      rw [Plan.unplacedAll, Plan.diagnosticsAll, Plan.diagnosticsAll, List.map_append,
        diagnostics_unplaced plan, diagnosticsAll_unplacedAll rest]

end

/-- **The diagnostics of a plan without lines are those of the plan**, without
lines. -/
theorem documentDiagnostics_unplaced (plan : Plan) :
    plan.unplaced.documentDiagnostics = plan.documentDiagnostics.map Diagnostic.unplaced := by
  cases plan with
  | element tag classified children =>
      rw [Plan.unplaced, Plan.documentDiagnostics, Plan.documentDiagnostics, List.map_append,
        List.map_append, diagnostics_classified_unplaced, diagnosticsAll_unplacedAll]
      show _ ++ (if classified.directive.isSome then _ else _) ++ _ = _
      by_cases hDirective : classified.directive.isSome
      · rw [if_pos hDirective, if_pos hDirective]
        rfl
      · rw [if_neg hDirective, if_neg hDirective]
        rfl

/-! ## Compilations -/

/-- Two compilations came to the same, but for lines: to views that differ at most
in the lines of their diagnostics, or to errors that differ at most in theirs. -/
inductive SameButLines : Except CompileError View → Except CompileError View → Prop where
  | views {view other : View} (hName : view.moduleName = other.moduleName)
      (hSource : view.source = other.source)
      (hDiagnostics : view.diagnostics.map Diagnostic.unplaced =
        other.diagnostics.map Diagnostic.unplaced) : SameButLines (.ok view) (.ok other)
  | errors {e other : CompileError} (h : e.unplaced = other.unplaced) :
      SameButLines (.error e) (.error other)

theorem ofDirectiveError_unplaced (e : DirectiveError) :
    (CompileError.ofDirectiveError e).unplaced = .ofDirectiveError e.unplaced := by
  cases e with
  | malformed loop => rfl
  | conflicting element line => rfl

/-- The views of plans that are the same but for lines are the same but for lines,
if the documents ask for the same imports. -/
theorem sameButLines_viewOf (options : Options) (origin : Option String)
    (host identifier : String) {document other : Document} {plan plan' : Plan}
    (hImports : document.imports = other.imports) (hPlan : plan.unplaced = plan'.unplaced) :
    SameButLines (.ok (viewOf options origin host identifier document plan))
      (.ok (viewOf options origin host identifier other plan')) := by
  have hLines : importLines document = importLines other := by
    rw [importLines, importLines, hImports]
  have hBody : bodyLines options plan = bodyLines options plan' := by
    rw [bodyLines, bodyLines, program_of_unplaced hPlan]
  have hDiagnostics : plan.documentDiagnostics.map Diagnostic.unplaced =
      plan'.documentDiagnostics.map Diagnostic.unplaced := by
    rw [← documentDiagnostics_unplaced, hPlan, documentDiagnostics_unplaced]
  unfold viewOf moduleLines
  rw [hLines, hBody]
  exact .views rfl rfl hDiagnostics

/-- Documents that have been read are compiled alike if their imports and their
elements are the same, wherever they come from. -/
theorem compileDocument_of_same_elements (options : Options) (origin : Option String)
    (host identifier : String) {document other : Document}
    (hImports : document.imports = other.imports)
    (hElements : document.elements = other.elements) :
    SameButLines (compileDocument options origin host identifier document).result
      (compileDocument options origin host identifier other).result := by
  have hPlans := ofDocument_of_same_elements options hElements
  unfold compileDocument
  cases hPlan : Plan.ofDocument options document with
  | error e =>
      cases hOther : Plan.ofDocument options other with
      | error e' =>
          rw [hPlan, hOther] at hPlans
          apply SameButLines.errors
          rw [ofDirectiveError_unplaced, ofDirectiveError_unplaced, Except.error.inj hPlans]
      | ok plan' =>
          rw [hPlan, hOther] at hPlans
          cases hPlans
  | ok plan =>
      cases hOther : Plan.ofDocument options other with
      | error e' =>
          rw [hPlan, hOther] at hPlans
          cases hPlans
      | ok plan' =>
          rw [hPlan, hOther] at hPlans
          exact sameButLines_viewOf options origin host identifier hImports
            (Except.ok.inj hPlans)

/-- **Only elements matter to the code.** Two sources that ask for the same imports
and have the same elements, whatever stands between these and on whichever lines,
give the same module, the same code and the same diagnostics but for lines, or
they fail alike. -/
theorem compile_of_same_elements (options : Options) (host : String) {source other : String}
    {document document' : Document} (hRead : Document.read source = .ok document)
    (hOther : Document.read other = .ok document')
    (hImports : document.imports = document'.imports)
    (hElements : document.elements = document'.elements) :
    SameButLines (compile options host source) (compile options host other) := by
  unfold compile compilation
  rw [hRead, hOther]
  cases Code.typeName? host with
  | none => exact .errors rfl
  | some identifier =>
      exact compileDocument_of_same_elements options none host identifier hImports hElements

/-- Text, a comment and a line feed beside a row, and none of them; a comment that
looks like an element is no element. -/
theorem compile_of_same_elements_mixed :
    let source := "<?using a?><p>x<!--<r/>-->\n<r _foreach='q'/></p>"
    let other := "<?using a?><p><r _foreach='q'/></p>"
    (∃ document document', Document.read source = .ok document ∧
      Document.read other = .ok document' ∧ document.imports = document'.imports ∧
      document.elements = document'.elements ∧
      document.content.length = 3 ∧ document'.content.length = 1) ∧
    SameButLines (compile .standard "Host" source) (compile .standard "Host" other) := by
  intro source other
  have hRead : Document.read source = .ok ⟨[⟨"using", "a"⟩], ⟨"p", [], 1⟩,
      [.text 1 "x", .comment 1 "<r/>", .element ⟨"r", [⟨"_foreach", "q"⟩], 2⟩ []]⟩ :=
    eq_ok_of_toOption (by decide +kernel)
  have hOther : Document.read other = .ok ⟨[⟨"using", "a"⟩], ⟨"p", [], 1⟩,
      [.element ⟨"r", [⟨"_foreach", "q"⟩], 1⟩ []]⟩ :=
    eq_ok_of_toOption (by decide +kernel)
  have hElements : Node.elementsOf
        [.text 1 "x", .comment 1 "<r/>", .element ⟨"r", [⟨"_foreach", "q"⟩], 2⟩ []] =
      Node.elementsOf [.element ⟨"r", [⟨"_foreach", "q"⟩], 1⟩ []] := by
    simp only [Node.elementsOf, Tag.unplaced]
  have hSame := congrArg (Node.element ⟨"p", [], 0⟩) hElements
  exact ⟨⟨_, _, hRead, hOther, rfl, hSame, rfl, rfl⟩,
    compile_of_same_elements .standard "Host" hRead hOther rfl hSame⟩

end Template

end LiveMarkup
