import LiveMarkup.Proofs.Markup.Along
import LiveMarkup.Proofs.Template.Remarks
import Mathlib.Data.List.Forall2

/-!
# Reports in document order

A document is gone through once, and the elements in it in document order. Whatever
there is to be told of them comes in that order too: a compilation fails with what is
wrong with the first element that anything is wrong with, and the remarks of one that
does not fail follow its elements. A directive on the root element, which has nothing
to depend on, is remarked behind everything else that is remarked on that element.

Elements stand in a text in document order, so the lines of remarks do not decrease.

## Main results

* `exists_meanings_of_ofNodes` — the remarks on nodes are those on their elements, in
  order.
* `pairwise_flatten` — remarks that follow elements in order are in order of lines.
* `compile_reports` — **errors and remarks follow document order**.
-/

namespace LiveMarkup.Template

open Markup (Tag Node Document)

/-! ## Remarks on an element -/

/-- What the attributes of an element mean, if they mean anything; the remarks on them
are on its line. -/
def Remarked (options : Options) (tag : Tag) (classified : Classified) : Prop :=
  classify options tag = .ok classified ∧ ∀ d ∈ classified.diagnostics, d.line = tag.line

theorem remarked_of_classify {options : Options} {tag : Tag} {classified : Classified}
    (h : classify options tag = .ok classified) : Remarked options tag classified := by
  refine ⟨h, fun d hMem => ?_⟩
  rw [diagnostics_of_classify h, Option.mem_toList, Option.map_eq_some_iff] at hMem
  obtain ⟨loop, hLoop, rfl⟩ := hMem
  exact line_of_malformedLoop hLoop

/-- What is remarked on a root element: what is remarked on any element and, behind it,
a directive. -/
def rootRemarks (root : Tag) (classified : Classified) : List Diagnostic :=
  classified.diagnostics ++
    if classified.directive.isSome then [Plan.ignoredDirective root] else []

theorem line_of_mem_rootRemarks {options : Options} {root : Tag} {classified : Classified}
    (h : Remarked options root classified) {d : Diagnostic}
    (hMem : d ∈ rootRemarks root classified) : d.line = root.line := by
  rcases List.mem_append.mp hMem with hRemark | hIgnored
  · exact h.2 d hRemark
  · split at hIgnored
    · rw [List.mem_singleton.mp hIgnored, Plan.ignoredDirective]
    · exact absurd hIgnored List.not_mem_nil

/-! ## Remarks on a document -/

/-- The remarks on nodes are those on their elements, in document order. -/
theorem exists_meanings_of_ofNodes {options : Options} {nodes : List Node} {plans : List Plan}
    (h : Plan.ofNodes options nodes = .ok plans) :
    ∃ meanings, List.Forall₂ (Remarked options) (Node.tagsAll nodes) meanings ∧
      Plan.diagnosticsAll plans = meanings.flatMap Classified.diagnostics := by
  induction nodes using Node.induction_elements generalizing plans with
  | nil =>
      rw [Plan.ofNodes] at h
      cases h
      exact ⟨[], .nil, rfl⟩
  | skip node rest hNode ih =>
      rw [ofNodes_skip options hNode] at h
      rw [tags_skip hNode]
      exact ih h
  | element tag content rest ihContent ihRest =>
      obtain ⟨classified, children, others, hTag, hChildren, hOthers, rfl⟩ :=
        ofNodes_element_ok h
      obtain ⟨inner, hInner, hInside⟩ := ihContent hChildren
      obtain ⟨behind, hBehind, hAfter⟩ := ihRest hOthers
      refine ⟨classified :: (inner ++ behind), ?_, ?_⟩
      · rw [Node.tagsAll_element]
        exact .cons (remarked_of_classify hTag) (List.rel_append hInner hBehind)
      · rw [Plan.diagnosticsAll, Plan.diagnostics, hInside, hAfter, List.flatMap_cons,
          List.flatMap_append, List.append_assoc]

/-- Remarks that follow elements belong to one of them. -/
theorem exists_tag_of_mem {tags : List Tag} {remarks : List (List Diagnostic)}
    (h : List.Forall₂ (fun tag ds => ∀ d ∈ ds, d.line = tag.line) tags remarks) {d : Diagnostic}
    (hMem : d ∈ remarks.flatten) : ∃ tag ∈ tags, d.line = tag.line := by
  induction h with
  | nil => exact absurd hMem List.not_mem_nil
  | cons hHere _ ih =>
      rw [List.flatten_cons, List.mem_append] at hMem
      rcases hMem with hFirst | hLater
      · exact ⟨_, List.mem_cons_self, hHere d hFirst⟩
      · obtain ⟨tag, hTag, hLine⟩ := ih hLater
        exact ⟨tag, List.mem_cons_of_mem _ hTag, hLine⟩

/-- Remarks that follow elements in order, each on the line of its element, are in order
of lines. -/
theorem pairwise_flatten {tags : List Tag} {remarks : List (List Diagnostic)}
    (h : List.Forall₂ (fun tag ds => ∀ d ∈ ds, d.line = tag.line) tags remarks)
    (hTags : tags.Pairwise fun a b => a.line ≤ b.line) :
    remarks.flatten.Pairwise fun a b => a.line ≤ b.line := by
  induction h with
  | nil => exact .nil
  | cons hHere hRest ih =>
      obtain ⟨hFirst, hOthers⟩ := List.pairwise_cons.mp hTags
      rw [List.flatten_cons]
      refine List.pairwise_append.mpr ⟨?_, ih hOthers, fun a ha b hb => ?_⟩
      · exact List.pairwise_of_forall_mem_list fun a ha b hb =>
          ((hHere a ha).trans (hHere b hb).symm).le
      · obtain ⟨other, hOther, hLine⟩ := exists_tag_of_mem hRest hb
        rw [hHere a ha, hLine]
        exact hFirst other hOther

/-! ## Compilations -/

/-- **The remarks of a compilation follow the elements of its document.** -/
theorem exists_meanings_of_compile {options : Options} {host source : String} {view : View}
    {document : Document} (hRead : Document.read source = .ok document)
    (h : compile options host source = .ok view) :
    ∃ root rest, List.Forall₂ (Remarked options) document.tags (root :: rest) ∧
      view.diagnostics = rootRemarks document.root root ++ rest.flatMap Classified.diagnostics := by
  obtain ⟨identifier, other, plan, -, hOther, hPlan, rfl⟩ := exists_read_of_compile h
  obtain rfl : document = other := Except.ok.inj (hRead.symm.trans hOther)
  obtain ⟨classified, children, hRoot, hChildren, rfl⟩ := ofDocument_ok hPlan
  obtain ⟨rest, hRest, hDiagnostics⟩ := exists_meanings_of_ofNodes hChildren
  refine ⟨classified, rest, ?_, ?_⟩
  · rw [Document.tags_eq]
    exact .cons (remarked_of_classify hRoot) hRest
  · rw [viewOf, Plan.documentDiagnostics, hDiagnostics, rootRemarks]

/-- The lines of the remarks of a compilation do not decrease. -/
theorem pairwise_remarks {source : String} {document : Document} {options : Options}
    {root : Classified} {rest : List Classified} (hRead : Document.read source = .ok document)
    (h : List.Forall₂ (Remarked options) document.tags (root :: rest)) :
    (rootRemarks document.root root ++ rest.flatMap Classified.diagnostics).Pairwise
      fun a b => a.line ≤ b.line := by
  have hTags := Document.tags_pairwise hRead
  rw [Document.tags_eq] at h hTags
  obtain ⟨hRoot, hRest⟩ := List.forall₂_cons.mp h
  have hRemarks : List.Forall₂ (fun tag ds => ∀ d ∈ ds, d.line = tag.line)
      (document.root :: Node.tagsAll document.content)
      (rootRemarks document.root root :: rest.map Classified.diagnostics) := by
    refine .cons (fun d => line_of_mem_rootRemarks hRoot) ?_
    exact List.forall₂_map_right_iff.mpr (hRest.imp fun _ _ hThis => hThis.2)
  have hLines := pairwise_flatten hRemarks hTags
  rwa [List.flatten_cons, ← List.flatMap_def] at hLines

/-- What is wrong with the first element that anything is wrong with is the error. -/
theorem compile_of_fault {options : Options} {host source identifier : String}
    {document : Document} (hHost : Code.typeName? host = some identifier)
    (hRead : Document.read source = .ok document) {fault : DirectiveError}
    (h : document.tags.findSome? (fault? options) = some fault) :
    compile options host source = .error (.ofDirectiveError fault) := by
  rw [compile_of_read options hHost hRead, ofDocument_of_fault h]

/-- A text that is read, for a host that is a type, is compiled unless something is wrong
with one of its elements. -/
theorem exists_error_iff {options : Options} {host source identifier : String}
    {document : Document} (hHost : Code.typeName? host = some identifier)
    (hRead : Document.read source = .ok document) :
    (∃ e, compile options host source = .error e) ↔
      ∃ tag ∈ document.tags, ∃ fault, classify options tag = .error fault := by
  constructor
  · -- without a fault there would be a plan, and with it a view
    rintro ⟨e, hError⟩
    by_contra hNone
    obtain ⟨plan, hPlan⟩ : ∃ plan, Plan.ofDocument options document = .ok plan := by
      rw [exists_plan_iff]
      intro tag hTag
      cases hFault : fault? options tag with
      | none => rfl
      | some fault => exact absurd ⟨tag, hTag, fault, fault?_eq_some_iff.mp hFault⟩ hNone
    rw [compile_of_read options hHost hRead, hPlan] at hError
    cases hError
  · rintro ⟨tag, hTag, fault, hFault⟩
    cases hFirst : document.tags.findSome? (fault? options) with
    | none =>
        have hNone := List.findSome?_eq_none_iff.mp hFirst tag hTag
        rw [fault?_eq_some_iff.mpr hFault] at hNone
        cases hNone
    | some first => exact ⟨_, compile_of_fault hHost hRead hFirst⟩

/-- **Errors and remarks follow document order.** A text that is read, for a host that is
a type, fails to be compiled exactly if something is wrong with one of its elements, and
then with what is wrong with the first such element. Otherwise its remarks are those on
its elements one after another, each on the line of its element. A directive on the root
element is remarked behind the other remarks on that element. The lines of the remarks
do not decrease. -/
theorem compile_reports (options : Options) {host source identifier : String}
    {document : Document} (hHost : Code.typeName? host = some identifier)
    (hRead : Document.read source = .ok document) :
    ((∃ e, compile options host source = .error e) ↔
      ∃ tag ∈ document.tags, ∃ fault, classify options tag = .error fault) ∧
    (∀ before tag after fault, document.tags = before ++ tag :: after →
      (∀ earlier ∈ before, ∃ classified, classify options earlier = .ok classified) →
      classify options tag = .error fault →
        compile options host source = .error (.ofDirectiveError fault)) ∧
    ∀ view, compile options host source = .ok view →
      ∃ root rest, List.Forall₂ (Remarked options) document.tags (root :: rest) ∧
        view.diagnostics =
          rootRemarks document.root root ++ rest.flatMap Classified.diagnostics ∧
        (∀ d ∈ rootRemarks document.root root, d.line = document.root.line) ∧
        view.diagnostics.Pairwise fun a b => a.line ≤ b.line := by
  refine ⟨exists_error_iff hHost hRead, ?_, ?_⟩
  · intro before tag after fault hTags hBefore hFault
    refine compile_of_fault hHost hRead (List.findSome?_eq_some_iff.mpr
      ⟨before, tag, after, hTags, fault?_eq_some_iff.mpr hFault, ?_⟩)
    exact fun earlier hMem => fault?_eq_none_iff.mpr (hBefore earlier hMem)
  · intro view hView
    obtain ⟨root, rest, hMeanings, hDiagnostics⟩ := exists_meanings_of_compile hRead hView
    have hRoot : Remarked options document.root root := by
      rw [Document.tags_eq] at hMeanings
      exact (List.forall₂_cons.mp hMeanings).1
    refine ⟨root, rest, hMeanings, hDiagnostics, fun d => line_of_mem_rootRemarks hRoot, ?_⟩
    rw [hDiagnostics]
    exact pairwise_remarks hRead hMeanings

/-- A directive on the root and two malformed loops: three remarks one below the other,
or the first of the loops for an error. -/
theorem compile_reports_rows :
    let source := "<page _if='on'>\n<row _foreach='x'/>\n<row _foreach='y'/></page>"
    (∃ view, compile Options.standard "Host" source = .ok view ∧
      view.diagnostics.map Diagnostic.line = [1, 2, 3]) ∧
    compile Options.standard.strict "Host" source =
      .error (.malformedDirective ⟨⟨"_foreach", "x"⟩, "row", 2⟩) := by
  intro source
  let page : Tag := ⟨"page", [⟨"_if", "on"⟩], 1⟩
  let first : Tag := ⟨"row", [⟨"_foreach", "x"⟩], 2⟩
  let second : Tag := ⟨"row", [⟨"_foreach", "y"⟩], 3⟩
  have hTags : (Document.read source).toOption.map Document.tags =
      some [page, first, second] := by decide +kernel
  have hHost : Code.typeName? "Host" = some "Host" := by decide +kernel
  obtain ⟨document, hRead, hDocument⟩ := exists_ok_of_map hTags
  obtain ⟨-, hError, -⟩ := compile_reports Options.standard.strict hHost hRead
  refine ⟨?_, hError [page] first [second] _ hDocument
    (List.forall_mem_singleton.mpr ⟨_, rfl⟩) rfl⟩
  have hMeans : ∀ tag ∈ document.tags,
      ∃ classified, classify Options.standard tag = .ok classified := by
    rw [hDocument]
    exact fun tag hMem => fault?_eq_none_iff.mp ((by decide +kernel :
      ∀ tag ∈ [page, first, second], fault? Options.standard tag = none) tag hMem)
  obtain ⟨view, hView⟩ := exists_compile (by rw [hHost]; rfl) hRead hMeans
  obtain ⟨-, -, hRemarks⟩ := compile_reports Options.standard hHost hRead
  obtain ⟨root, rest, hMeanings, hDiagnostics, -⟩ := hRemarks view hView
  have hPage : document.root = page := (List.cons.inj (document.tags_eq ▸ hDocument)).1
  rw [hDocument] at hMeanings
  obtain - | ⟨⟨hRoot, -⟩, - | ⟨⟨hFirst, -⟩, - | ⟨⟨hSecond, -⟩, - | _⟩⟩⟩ := hMeanings
  cases hRoot
  cases hFirst
  cases hSecond
  exact ⟨view, hView, by rw [hDiagnostics, hPage]; rfl⟩

end LiveMarkup.Template
