import LiveMarkup.Proofs.Template.Faults

/-!
# What strictness changes

A loop that has not the form of one is dropped with a remark, or it is an error
if the options ask for strictness. Nothing else depends on that option: a strict
compilation that gives a view gives the one that a lenient compilation gives,
and one that fails where a lenient one does not fails at the first malformed
loop.

An element may carry several loop attributes in different spellings of the name.
The first of them is the one that counts, for both.

## Main results

* `classify_strict` — an element means the same to both but for a malformed loop.
* `compile_strict` — **strictness only rejects**.
-/

namespace LiveMarkup.Template

open Markup (Tag Node Document)

namespace Options

/-- The options with malformed loops rejected. -/
def strict (options : Options) : Options :=
  { options with strictDirectives := true }

/-- The options with malformed loops dropped. -/
def lenient (options : Options) : Options :=
  { options with strictDirectives := false }

end Options

/-- The loop of an element that has not the form of one. -/
def malformedLoop? (tag : Tag) : Option DroppedLoop :=
  (loopAttribute? tag.attributes).bind fun a =>
    if (Loop.read? a.value).isNone then some ⟨a, tag.name, tag.line⟩ else none

theorem line_of_malformedLoop {tag : Tag} {loop : DroppedLoop}
    (h : malformedLoop? tag = some loop) : loop.line = tag.line := by
  obtain ⟨a, -, hIf⟩ := Option.bind_eq_some_iff.mp h
  split at hIf
  · cases hIf
    rfl
  · cases hIf

/-! ## Elements -/

/-- What an attribute binds does not depend on strictness. -/
theorem bindingOf_strict (options : Options) :
    bindingOf options.strict = bindingOf options.lenient := rfl

/-- **An element means the same to both but for a malformed loop.** -/
theorem classify_strict (options : Options) (tag : Tag) :
    classify options.strict tag =
      match malformedLoop? tag with
      | some loop => .error (.malformed loop)
      | none => classify options.lenient tag := by
  unfold classify malformedLoop?
  rw [bindingOf_strict]
  cases loopAttribute? tag.attributes with
  | none => rfl
  | some a =>
      rw [Option.bind_some]
      cases hRead : Loop.read? a.value with
      | none => simp [hRead, Options.strict]
      | some loop => simp [hRead]

theorem fault?_strict (options : Options) (tag : Tag) :
    fault? options.strict tag =
      ((malformedLoop? tag).map .malformed).or (fault? options.lenient tag) := by
  rw [fault?, classify_strict]
  cases malformedLoop? tag with
  | none => rfl
  | some loop => rfl

/-! ## Plans -/

/-- Nodes without malformed loops have the same plans. -/
theorem ofNodes_strict (options : Options) (nodes : List Node)
    (h : ∀ tag ∈ Node.tagsAll nodes, malformedLoop? tag = none) :
    Plan.ofNodes options.strict nodes = Plan.ofNodes options.lenient nodes := by
  induction nodes using Node.induction_elements with
  | nil => rw [Plan.ofNodes, Plan.ofNodes]
  | skip node rest hNode ih =>
      rw [tags_skip hNode] at h
      rw [ofNodes_skip options.strict hNode, ofNodes_skip options.lenient hNode, ih h]
  | element tag content rest ihContent ihRest =>
      rw [Node.tagsAll_element] at h
      have hTag : classify options.strict tag = classify options.lenient tag := by
        rw [classify_strict, h tag (by simp)]
      rw [Plan.ofNodes, Plan.ofNodes, hTag,
        ihContent fun inner hMem => h inner (by simp [hMem]),
        ihRest fun inner hMem => h inner (by simp [hMem])]

/-- A document without malformed loops has the same plan. -/
theorem ofDocument_strict (options : Options) (document : Document)
    (h : ∀ tag ∈ document.tags, malformedLoop? tag = none) :
    Plan.ofDocument options.strict document = Plan.ofDocument options.lenient document := by
  rw [Document.tags_eq] at h
  have hRoot : classify options.strict document.root = classify options.lenient document.root := by
    rw [classify_strict, h document.root (by simp)]
  rw [Plan.ofDocument, Plan.ofDocument, hRoot,
    ofNodes_strict options document.content fun tag hMem => h tag (by simp [hMem])]

/-- A document has a strict plan if it has a lenient one and no malformed loops,
and only then. -/
theorem exists_strict_plan_iff (options : Options) (document : Document) :
    (∃ plan, Plan.ofDocument options.strict document = .ok plan) ↔
      (∀ tag ∈ document.tags, malformedLoop? tag = none) ∧
        ∃ plan, Plan.ofDocument options.lenient document = .ok plan := by
  rw [exists_plan_iff, exists_plan_iff]
  simp only [fault?_strict, Option.or_eq_none_iff, Option.map_eq_none_iff]
  constructor
  · intro h
    exact ⟨fun tag hMem => (h tag hMem).1, fun tag hMem => (h tag hMem).2⟩
  · rintro ⟨hLoops, hFaults⟩ tag hMem
    exact ⟨hLoops tag hMem, hFaults tag hMem⟩

/-- The first malformed loop is the error of a document that has a lenient plan. -/
theorem ofDocument_of_malformed {options : Options} {document : Document} {plan : Plan}
    {before after : List Tag} {tag : Tag} {loop : DroppedLoop}
    (hPlan : Plan.ofDocument options.lenient document = .ok plan)
    (hTags : document.tags = before ++ tag :: after)
    (hBefore : ∀ earlier ∈ before, malformedLoop? earlier = none)
    (hLoop : malformedLoop? tag = some loop) :
    Plan.ofDocument options.strict document = .error (.malformed loop) := by
  have hLenient : ∀ tag ∈ document.tags, fault? options.lenient tag = none :=
    exists_plan_iff.mp ⟨plan, hPlan⟩
  refine ofDocument_of_fault (List.findSome?_eq_some_iff.mpr ⟨before, tag, after, hTags, ?_, ?_⟩)
  · rw [fault?_strict, hLoop]
    rfl
  · intro earlier hMem
    rw [fault?_strict, hBefore earlier hMem, hLenient earlier (by simp [hTags, hMem])]
    rfl

/-! ## Compilations -/

/-- A view does not depend on strictness. -/
theorem viewOf_strict (options : Options) (origin : Option String) (host identifier : String)
    (document : Document) (plan : Plan) :
    viewOf options.strict origin host identifier document plan =
      viewOf options.lenient origin host identifier document plan := rfl

/-- A view that a strict compilation gives is what a lenient one gives. -/
theorem compile_lenient_of_strict {options : Options} {host source : String} {view : View}
    (h : compile options.strict host source = .ok view) :
    compile options.lenient host source = .ok view := by
  obtain ⟨identifier, document, plan, hHost, hRead, hPlan, rfl⟩ := exists_read_of_compile h
  have hLoops := ((exists_strict_plan_iff options document).mp ⟨plan, hPlan⟩).1
  rw [ofDocument_strict options document hLoops] at hPlan
  rw [compile_of_read _ hHost hRead, hPlan, viewOf_strict]

/-- Where a lenient compilation gives a view, a strict one gives it if there are
no malformed loops. -/
theorem compile_strict_iff {options : Options} {host source identifier : String}
    {document : Document} {plan : Plan} (hHost : Code.typeName? host = some identifier)
    (hRead : Document.read source = .ok document)
    (hPlan : Plan.ofDocument options.lenient document = .ok plan) :
    compile options.strict host source =
        .ok (viewOf options.lenient none host identifier document plan) ↔
      ∀ tag ∈ document.tags, malformedLoop? tag = none := by
  constructor
  · intro h
    obtain ⟨_, other, strictPlan, -, hOther, hStrict, -⟩ := exists_read_of_compile h
    obtain rfl : document = other := Except.ok.inj (hRead.symm.trans hOther)
    exact ((exists_strict_plan_iff options document).mp ⟨strictPlan, hStrict⟩).1
  · intro h
    rw [compile_of_read _ hHost hRead, ofDocument_strict options document h, hPlan]
    exact congrArg Except.ok (viewOf_strict options none host identifier document plan)

/-- **Strictness only rejects.** Where a strict compilation gives a view, a lenient
one gives the same. Where a lenient one gives a view, a strict one gives it
exactly if no element's first loop is malformed, and otherwise fails with the
first malformed loop in document order, at the line of its element. Where a
lenient one fails, a strict one fails. -/
theorem compile_strict (options : Options) (host source : String) :
    (∀ view, compile options.strict host source = .ok view →
      compile options.lenient host source = .ok view) ∧
    (∀ view, compile options.lenient host source = .ok view →
      ∃ document, Document.read source = .ok document ∧
        (compile options.strict host source = .ok view ↔
          ∀ tag ∈ document.tags, malformedLoop? tag = none) ∧
        ∀ before tag after loop, document.tags = before ++ tag :: after →
          (∀ earlier ∈ before, malformedLoop? earlier = none) → malformedLoop? tag = some loop →
            loop.line = tag.line ∧
              compile options.strict host source = .error (.malformedDirective loop)) ∧
    ∀ e, compile options.lenient host source = .error e →
      ∃ e', compile options.strict host source = .error e' := by
  refine ⟨fun view => compile_lenient_of_strict, ?_, ?_⟩
  · intro view hLenient
    obtain ⟨identifier, document, plan, hHost, hRead, hPlan, rfl⟩ :=
      exists_read_of_compile hLenient
    refine ⟨document, hRead, compile_strict_iff hHost hRead hPlan, ?_⟩
    intro before tag after loop hTags hBefore hLoop
    refine ⟨line_of_malformedLoop hLoop, ?_⟩
    rw [compile_of_read _ hHost hRead, ofDocument_of_malformed hPlan hTags hBefore hLoop]
    rfl
  · intro e hLenient
    cases hStrict : compile options.strict host source with
    | error e' => exact ⟨e', rfl⟩
    | ok view =>
        rw [compile_lenient_of_strict hStrict] at hLenient
        cases hLenient

/-- A row with two loops, of which only the first one counts, and that one is
malformed: the lenient compilation drops it, the strict one fails with it. -/
theorem compile_strict_rows :
    let source := "<page><row/>\n<row _FOREACH='rows' _foreach='x of xs'/></page>"
    (∃ view, compile Options.standard.lenient "Host" source = .ok view) ∧
      compile Options.standard.strict "Host" source =
        .error (.malformedDirective ⟨⟨"_FOREACH", "rows"⟩, "row", 2⟩) := by
  intro source
  let last : Tag := ⟨"row", [⟨"_FOREACH", "rows"⟩, ⟨"_foreach", "x of xs"⟩], 2⟩
  have hTags : (Document.read source).toOption.map Document.tags =
      some ([⟨"page", [], 1⟩, ⟨"row", [], 1⟩] ++ last :: []) := by decide +kernel
  have hHost : (Code.typeName? "Host").isSome = true := by decide +kernel
  obtain ⟨document, hRead, hDocument⟩ := exists_ok_of_map hTags
  have hFaults : ∀ tag ∈ document.tags, fault? Options.standard.lenient tag = none := by
    rw [hDocument]
    decide +kernel
  obtain ⟨view, hLenient⟩ := exists_compile hHost hRead fun tag hMem =>
    fault?_eq_none_iff.mp (hFaults tag hMem)
  obtain ⟨document', hRead', -, hFirst⟩ :=
    (compile_strict Options.standard "Host" source).2.1 view hLenient
  obtain rfl : document = document' := Except.ok.inj (hRead.symm.trans hRead')
  exact ⟨⟨view, hLenient⟩, (hFirst _ last [] _ hDocument (by decide +kernel) (by decide +kernel)).2⟩

end LiveMarkup.Template
