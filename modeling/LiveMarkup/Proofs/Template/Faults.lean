import LiveMarkup.Proofs.Template.Meaning

/-!
# The element that decides an error

Elements are classified in document order, and a document has a plan if the
attributes of all its elements have a meaning. Otherwise the first element whose
attributes have none decides the error. `fault?` is what is wrong with one
element, and the theorems of this module say what becomes of a document in terms
of it.

## Main results

* `Node.induction_elements` — induction over content, in which everything but
  elements is passed over.
* `ofDocument_of_fault`, `exists_plan_iff` — the first fault in document order is
  the error, and without one there is a plan.
* `compilation_of_read` — a text that is read compiles as its plan says.
-/

namespace LiveMarkup

namespace Markup

/-- Induction over content: an element is reduced to its own content and to what
follows it, and nothing else matters. -/
theorem Node.induction_elements {motive : List Node → Prop} (nil : motive [])
    (element : ∀ tag content rest, motive content → motive rest →
      motive (.element tag content :: rest))
    (skip : ∀ node rest, node.isElement = false → motive rest → motive (node :: rest)) :
    ∀ nodes, motive nodes
  | [] => nil
  | .element tag content :: rest =>
    element tag content rest (Node.induction_elements nil element skip content)
      (Node.induction_elements nil element skip rest)
  | .text _ _ :: rest => skip _ rest rfl (Node.induction_elements nil element skip rest)
  | .comment _ _ :: rest => skip _ rest rfl (Node.induction_elements nil element skip rest)
  | .instruction _ _ _ :: rest =>
    skip _ rest rfl (Node.induction_elements nil element skip rest)

theorem Node.tagsAll_element (tag : Tag) (content rest : List Node) :
    Node.tagsAll (.element tag content :: rest) =
      tag :: (Node.tagsAll content ++ Node.tagsAll rest) := by
  rw [Node.tagsAll, Node.tags, List.cons_append]

theorem Document.tags_eq (document : Document) :
    document.tags = document.root :: Node.tagsAll document.content := by
  rw [Document.tags, Document.rootNode, Node.tags]

end Markup

namespace Template

open Markup (Tag Node Document)

/-- What is wrong with the attributes of an element. -/
def fault? (options : Options) (tag : Tag) : Option DirectiveError :=
  match classify options tag with
  | .ok _ => none
  | .error e => some e

theorem fault?_eq_none_iff {options : Options} {tag : Tag} :
    fault? options tag = none ↔ ∃ classified, classify options tag = .ok classified := by
  rw [fault?]
  cases classify options tag with
  | ok classified => simp
  | error e => simp

theorem fault?_eq_some_iff {options : Options} {tag : Tag} {e : DirectiveError} :
    fault? options tag = some e ↔ classify options tag = .error e := by
  rw [fault?]
  cases classify options tag with
  | ok classified => simp
  | error other => simp

/-! ## Plans -/

/-- Nodes without a fault have plans. -/
theorem exists_plans_of_no_fault {options : Options} {nodes : List Node}
    (h : (Node.tagsAll nodes).findSome? (fault? options) = none) :
    ∃ plans, Plan.ofNodes options nodes = .ok plans :=
  exists_ofNodes nodes fun tag hMem =>
    fault?_eq_none_iff.mp (List.findSome?_eq_none_iff.mp h tag hMem)

/-- The first fault among nodes is their error. -/
theorem ofNodes_of_fault {options : Options} (nodes : List Node) {e : DirectiveError}
    (h : (Node.tagsAll nodes).findSome? (fault? options) = some e) :
    Plan.ofNodes options nodes = .error e := by
  induction nodes using Node.induction_elements with
  | nil => cases h
  | skip node rest hNode ih =>
      rw [tags_skip hNode] at h
      rw [ofNodes_skip options hNode]
      exact ih h
  | element tag content rest ihContent ihRest =>
      rw [Node.tagsAll_element, List.findSome?_cons, List.findSome?_append] at h
      rw [Plan.ofNodes]
      cases hTag : classify options tag with
      | error other =>
          rw [fault?_eq_some_iff.mpr hTag] at h
          cases h
          rfl
      | ok classified =>
          rw [fault?_eq_none_iff.mpr ⟨classified, hTag⟩] at h
          cases hContent : (Node.tagsAll content).findSome? (fault? options) with
          | some other =>
              rw [hContent] at h
              cases h
              rw [ihContent hContent]
              rfl
          | none =>
              rw [hContent, Option.none_or] at h
              obtain ⟨children, hChildren⟩ := exists_plans_of_no_fault hContent
              rw [hChildren, ihRest h]
              rfl

/-- **The first fault in a document is its error.** -/
theorem ofDocument_of_fault {options : Options} {document : Document} {e : DirectiveError}
    (h : document.tags.findSome? (fault? options) = some e) :
    Plan.ofDocument options document = .error e := by
  rw [Document.tags_eq, List.findSome?_cons] at h
  rw [Plan.ofDocument]
  cases hRoot : classify options document.root with
  | error other =>
      rw [fault?_eq_some_iff.mpr hRoot] at h
      cases h
      rfl
  | ok classified =>
      rw [fault?_eq_none_iff.mpr ⟨classified, hRoot⟩] at h
      rw [ofNodes_of_fault document.content h]
      rfl

/-- **A document has a plan if no element has a fault**, and only then. -/
theorem exists_plan_iff {options : Options} {document : Document} :
    (∃ plan, Plan.ofDocument options document = .ok plan) ↔
      ∀ tag ∈ document.tags, fault? options tag = none := by
  rw [← List.findSome?_eq_none_iff]
  constructor
  · rintro ⟨plan, hPlan⟩
    cases hFault : document.tags.findSome? (fault? options) with
    | none => rfl
    | some e =>
        rw [ofDocument_of_fault hFault] at hPlan
        cases hPlan
  · intro h
    rw [Document.tags_eq, List.findSome?_cons] at h
    cases hRoot : fault? options document.root with
    | some e =>
        rw [hRoot] at h
        cases h
    | none =>
        rw [hRoot] at h
        obtain ⟨classified, hClassified⟩ := fault?_eq_none_iff.mp hRoot
        obtain ⟨children, hChildren⟩ := exists_plans_of_no_fault h
        refine ⟨.element document.root classified children, ?_⟩
        rw [Plan.ofDocument, hClassified, hChildren]
        rfl

/-! ## Compilations -/

/-- A result that is there is the one that is known. -/
theorem eq_ok_of_toOption {ε α : Type} {result : Except ε α} {a : α}
    (h : result.toOption = some a) : result = .ok a := by
  cases result with
  | error e => cases h
  | ok b => rw [Option.some.inj h]

/-- There is a result if something of it is known. -/
theorem exists_ok_of_map {ε α β : Type} {result : Except ε α} {f : α → β} {b : β}
    (h : result.toOption.map f = some b) : ∃ a, result = .ok a ∧ f a = b := by
  cases result with
  | error e => cases h
  | ok a => exact ⟨a, rfl, Option.some.inj h⟩

/-- **A text that is read compiles as its plan says**, from whatever file it comes. -/
theorem compilation_of_read (options : Options) (origin : Option String)
    {host source identifier : String} {document : Document}
    (hHost : Code.typeName? host = some identifier)
    (hRead : Document.read source = .ok document) :
    (compilation options origin host source).result =
      match Plan.ofDocument options document with
      | .error e => .error (.ofDirectiveError e)
      | .ok plan => .ok (viewOf options origin host identifier document plan) := by
  unfold compilation
  simp only [hHost, hRead, compileDocument]
  cases Plan.ofDocument options document <;> rfl

theorem compile_of_read (options : Options) {host source identifier : String}
    {document : Document} (hHost : Code.typeName? host = some identifier)
    (hRead : Document.read source = .ok document) :
    compile options host source =
      match Plan.ofDocument options document with
      | .error e => .error (.ofDirectiveError e)
      | .ok plan => .ok (viewOf options none host identifier document plan) :=
  compilation_of_read options none hHost hRead

/-- A text that compiles, whatever the options, is for a host that is a type, and
it is read. -/
theorem exists_read_of_compilation {options : Options} {origin : Option String}
    {host source : String} {view : View}
    (h : (compilation options origin host source).result = .ok view) :
    ∃ identifier document plan, Code.typeName? host = some identifier ∧
      Document.read source = .ok document ∧ Plan.ofDocument options document = .ok plan ∧
      view = viewOf options origin host identifier document plan := by
  cases hHost : Code.typeName? host with
  | none =>
      unfold compilation at h
      rw [hHost] at h
      cases h
  | some identifier =>
      cases hRead : Document.read source with
      | error e =>
          unfold compilation at h
          rw [hHost, hRead] at h
          cases h
      | ok document =>
          rw [compilation_of_read options origin hHost hRead] at h
          cases hPlan : Plan.ofDocument options document with
          | error e =>
              rw [hPlan] at h
              cases h
          | ok plan =>
              rw [hPlan] at h
              cases h
              exact ⟨identifier, document, plan, rfl, rfl, hPlan, rfl⟩

theorem exists_read_of_compile {options : Options} {host source : String} {view : View}
    (h : compile options host source = .ok view) :
    ∃ identifier document plan, Code.typeName? host = some identifier ∧
      Document.read source = .ok document ∧ Plan.ofDocument options document = .ok plan ∧
      view = viewOf options none host identifier document plan :=
  exists_read_of_compilation h

/-- What keeps a text from being compiled: its host, its markup, or its directives. -/
theorem error_of_compilation {options : Options} {origin : Option String} {host source : String}
    {e : CompileError} (h : (compilation options origin host source).result = .error e) :
    e = .invalidHost host ∨
      (∃ fault, Document.read source = .error fault ∧ e = .ofReadError fault) ∨
      ∃ fault, e = .ofDirectiveError fault := by
  cases hHost : Code.typeName? host with
  | none =>
      unfold compilation at h
      rw [hHost] at h
      exact .inl (Except.error.inj h).symm
  | some identifier =>
      cases hRead : Document.read source with
      | error fault =>
          unfold compilation at h
          rw [hHost, hRead] at h
          exact .inr (.inl ⟨fault, rfl, (Except.error.inj h).symm⟩)
      | ok document =>
          rw [compilation_of_read options origin hHost hRead] at h
          cases hPlan : Plan.ofDocument options document with
          | error fault =>
              rw [hPlan] at h
              exact .inr (.inr ⟨fault, (Except.error.inj h).symm⟩)
          | ok plan =>
              rw [hPlan] at h
              cases h

end Template

end LiveMarkup
