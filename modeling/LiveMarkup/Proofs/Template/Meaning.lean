import LiveMarkup.Proofs.Template.Running
import LiveMarkup.Template.View

/-!
# The view that a document describes

What a document means as a view, without any program: the virtual tree of its
root element. Elements become trees; how often one does is said by its
directive. Character data, comments and instructions become nothing.

## Main results

* `classify_directive`, `classify_bindings` — where the attributes of an element
  have a meaning, it is the one that is used here.
* `ofDocument_ok` — a document with a plan has meaningful attributes throughout.
* `exists_compile` — what a text needs to compile.
-/

namespace LiveMarkup.Template

open Markup (Attribute Tag Node Document)

variable {I H : Type}

/-- The loop on an element, if it has one that is well formed. -/
def loop? (attributes : List Attribute) : Option Loop :=
  (loopAttribute? attributes).bind fun a => Loop.read? a.value

/-- The loops on the elements among nodes and below them. -/
def loopsOf (nodes : List Node) : List Loop :=
  (Node.tagsAll nodes).filterMap fun tag => loop? tag.attributes

namespace Meaning

/-- The items in scope for an element, time after time: once without a directive,
once or never with a condition, and once for every item with a loop. -/
def scopes (interp : Interpretation I H) (items : Items I) (attributes : List Attribute) :
    List (Items I) :=
  match loop? attributes, condition? attributes with
  | some loop, _ =>
    (interp.collection items loop.collection).map fun item =>
      (interp.itemName loop.item, item) :: items
  | none, some condition => if interp.condition items condition then [items] else []
  | none, none => [items]

/-- The name and the value of the property that an attribute sets. -/
def property (interp : Interpretation I H) (options : Options) (items : Items I) (a : Attribute) :
    String × Value H :=
  match bindingOf options a with
  | .literal name value => (name, .text value)
  | .dynamic name expression => (name, interp.value items expression)
  | .event event statement => (event, .handler (interp.handler items statement))

/-- The properties of an element: its attributes that are no directives in document
order, of which the last one under a name stays. -/
def properties (interp : Interpretation I H) (options : Options) (items : Items I)
    (attributes : List Attribute) : Properties H :=
  .ofList ((attributes.filter (!isDirective ·)).map (property interp options items))

mutual

/-- The trees of a node. -/
def ofNode (interp : Interpretation I H) (options : Options) :
    Node → Items I → List (VirtualTree H)
  | .element tag content, items =>
    (scopes interp items tag.attributes).map fun inner =>
      .node tag.name (properties interp options inner tag.attributes)
        (ofNodes interp options content inner)
  | .text .., _ => []
  | .comment .., _ => []
  | .instruction .., _ => []

/-- The trees of nodes in document order. -/
def ofNodes (interp : Interpretation I H) (options : Options) :
    List Node → Items I → List (VirtualTree H)
  | [], _ => []
  | node :: rest, items => ofNode interp options node items ++ ofNodes interp options rest items

end

/-- The tree of a document: that of its root element, whose directive counts for
nothing. -/
def ofDocument (interp : Interpretation I H) (options : Options) (document : Document) :
    VirtualTree H :=
  .node document.root.name (properties interp options [] document.root.attributes)
    (ofNodes interp options document.content [])

end Meaning

/-! ## Classified attributes -/

/-- Where the attributes of an element have a meaning, its directive is its loop
or else its condition. -/
theorem classify_directive {options : Options} {tag : Tag} {classified : Classified}
    (h : classify options tag = .ok classified) :
    classified.directive =
      ((loop? tag.attributes).map Directive.each).or
        ((condition? tag.attributes).map Directive.when) := by
  unfold classify at h
  simp only at h
  rw [loop?]
  cases hLoop : loopAttribute? tag.attributes with
  | none =>
      rw [hLoop] at h
      cases h
      rfl
  | some a =>
      rw [hLoop] at h
      simp only at h
      rw [Option.bind_some]
      cases hRead : Loop.read? a.value with
      | none =>
          rw [hRead] at h
          simp only at h
          split at h
          · cases h
          · cases h
            rfl
      | some loop =>
          rw [hRead] at h
          simp only at h
          split at h
          · cases h
          · cases h
            rfl

/-- Where the attributes of an element have a meaning, all but the directives
bind something. -/
theorem classify_bindings {options : Options} {tag : Tag} {classified : Classified}
    (h : classify options tag = .ok classified) :
    classified.bindings = (tag.attributes.filter (!isDirective ·)).map (bindingOf options) := by
  unfold classify at h
  simp only at h
  split at h
  · cases h
    rfl
  · split at h
    · split at h
      · cases h
      · cases h
        rfl
    · split at h
      · cases h
      · cases h
        rfl

/-- The rounds of the block for an element are its scopes. -/
theorem rounds_ofDirective {options : Options} {tag : Tag} {classified : Classified}
    (h : classify options tag = .ok classified) (interp : Interpretation I H) (items : Items I) :
    ((Head.ofDirective classified.directive).rounds interp items).map (· ++ items) =
      Meaning.scopes interp items tag.attributes := by
  rw [classify_directive h, Meaning.scopes]
  cases loop? tag.attributes with
  | some loop => simp [Head.ofDirective, Head.rounds]
  | none =>
      cases condition? tag.attributes with
      | none => rfl
      | some condition =>
          simp only [Option.map_none, Option.map_some, Option.none_or, Head.ofDirective, Head.rounds]
          split <;> rfl

/-- What the bindings of an element set is what its attributes mean. -/
theorem properties_of_bindings {options : Options} {tag : Tag} {classified : Classified}
    (h : classify options tag = .ok classified) (interp : Interpretation I H) (items : Items I) :
    Properties.ofList (classified.bindings.map fun binding =>
        (binding.source.1, binding.source.2.value interp items)) =
      Meaning.properties interp options items tag.attributes := by
  rw [classify_bindings h, Meaning.properties, List.map_map]
  congr 1
  refine List.map_congr_left fun a _ => ?_
  rw [Function.comp_apply, Meaning.property]
  cases bindingOf options a <;> rfl

/-- Character data, comments and instructions have no plans. -/
theorem ofNodes_skip (options : Options) {node : Node} (hNode : node.isElement = false)
    (rest : List Node) : Plan.ofNodes options (node :: rest) = Plan.ofNodes options rest := by
  cases node with
  | element tag content => cases hNode
  | _ => rw [Plan.ofNodes]; simp

/-- Character data, comments and instructions mean nothing. -/
theorem Meaning.ofNodes_skip (interp : Interpretation I H) (options : Options) {node : Node}
    (hNode : node.isElement = false) (rest : List Node) (items : Items I) :
    ofNodes interp options (node :: rest) items = ofNodes interp options rest items := by
  cases node with
  | element tag content => cases hNode
  | _ => rfl

theorem tags_skip {node : Node} (hNode : node.isElement = false) (rest : List Node) :
    Node.tagsAll (node :: rest) = Node.tagsAll rest := by
  cases node with
  | element tag content => cases hNode
  | _ => rfl

/-- A document with a plan has meaningful attributes and plans of its elements. -/
theorem ofDocument_ok {options : Options} {document : Document} {plan : Plan}
    (h : Plan.ofDocument options document = .ok plan) :
    ∃ classified children, classify options document.root = .ok classified ∧
      Plan.ofNodes options document.content = .ok children ∧
      plan = .element document.root classified children := by
  unfold Plan.ofDocument at h
  cases hRoot : classify options document.root with
  | error e => simp [hRoot, bind, Except.bind] at h
  | ok classified =>
      cases hChildren : Plan.ofNodes options document.content with
      | error e => simp [hRoot, hChildren, bind, Except.bind] at h
      | ok children =>
          simp only [hRoot, hChildren, bind, Except.bind, pure, Except.pure, Except.ok.injEq] at h
          exact ⟨classified, children, rfl, rfl, h.symm⟩

/-- Nodes with plans that begin with an element. -/
theorem ofNodes_element_ok {options : Options} {tag : Tag} {content rest : List Node}
    {plans : List Plan} (h : Plan.ofNodes options (.element tag content :: rest) = .ok plans) :
    ∃ classified children others, classify options tag = .ok classified ∧
      Plan.ofNodes options content = .ok children ∧ Plan.ofNodes options rest = .ok others ∧
      plans = .element tag classified children :: others := by
  rw [Plan.ofNodes] at h
  cases hTag : classify options tag with
  | error e => simp [hTag, bind, Except.bind] at h
  | ok classified =>
      cases hChildren : Plan.ofNodes options content with
      | error e => simp [hTag, hChildren, bind, Except.bind] at h
      | ok children =>
          cases hRest : Plan.ofNodes options rest with
          | error e => simp [hTag, hChildren, hRest, bind, Except.bind] at h
          | ok others =>
              simp only [hTag, hChildren, hRest, bind, Except.bind, pure, Except.pure,
                Except.ok.injEq] at h
              exact ⟨classified, children, others, rfl, rfl, rfl, h.symm⟩

/-- Nodes have plans if the attributes of all elements have a meaning. -/
theorem exists_ofNodes {options : Options} : (nodes : List Node) →
    (∀ tag ∈ Node.tagsAll nodes, ∃ classified, classify options tag = .ok classified) →
    ∃ plans, Plan.ofNodes options nodes = .ok plans
  | [], _ => ⟨[], by rw [Plan.ofNodes]⟩
  | .element tag content :: rest, hTags => by
      rw [Node.tagsAll, Node.tags] at hTags
      obtain ⟨classified, hTag⟩ := hTags tag (by simp)
      obtain ⟨children, hContent⟩ := exists_ofNodes content fun inner hMem =>
        hTags inner (by simp [hMem])
      obtain ⟨others, hRest⟩ := exists_ofNodes rest fun inner hMem => hTags inner (by simp [hMem])
      refine ⟨.element tag classified children :: others, ?_⟩
      rw [Plan.ofNodes, hTag, hContent, hRest]
      rfl
  | .text _ _ :: rest, hTags => by
      rw [ofNodes_skip options rfl]
      exact exists_ofNodes rest hTags
  | .comment _ _ :: rest, hTags => by
      rw [ofNodes_skip options rfl]
      exact exists_ofNodes rest hTags
  | .instruction _ _ _ :: rest, hTags => by
      rw [ofNodes_skip options rfl]
      exact exists_ofNodes rest hTags

/-- **A text compiles** if the host is a type, the text is a document, and the
attributes of all elements have a meaning. -/
theorem exists_compile {options : Options} {host source : String} {document : Document}
    (hHost : (Code.typeName? host).isSome = true) (hRead : Document.read source = .ok document)
    (hTags : ∀ tag ∈ document.tags, ∃ classified, classify options tag = .ok classified) :
    ∃ view, compile options host source = .ok view := by
  obtain ⟨identifier, hIdentifier⟩ := Option.isSome_iff_exists.mp hHost
  rw [Document.tags, Document.rootNode, Node.tags] at hTags
  obtain ⟨classified, hRoot⟩ := hTags document.root (by simp)
  obtain ⟨children, hContent⟩ := exists_ofNodes document.content fun inner hMem =>
    hTags inner (by simp [hMem])
  have hPlan : Plan.ofDocument options document =
      .ok (.element document.root classified children) := by
    rw [Plan.ofDocument, hRoot, hContent]
    rfl
  unfold compile compilation
  rw [hIdentifier]
  simp only [hRead, compileDocument, hPlan]
  exact ⟨_, rfl⟩

end LiveMarkup.Template
