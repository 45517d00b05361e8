import LiveMarkup.Proofs.Markup.Naming
import LiveMarkup.Proofs.Template.Strictness
import LiveMarkup.Proofs.Text.Lines

/-!
# Remarks and their lines

The remarks on a document that compiles are those on the loops that were dropped, in
document order, and perhaps one on its root element. Everything that a remark says
stands on one line but for the value of a loop, which may hold line feeds: written
as they are, or as references.

An error that a build passes over is told on one line as well, unless it quotes a
reference that stands for no character: that is whatever stands behind an ampersand.

## Main results

* `mem_documentDiagnostics_iff` — what is remarked on a document.
* `isLine_diagnostic_iff` — **a dropped loop is remarked on one line exactly if its
  value stands on one**.
* `isLine_message_iff` — the same of errors that are passed over, and of references.
-/

namespace LiveMarkup

namespace Markup

open Text (IsLine isLine_append isLine_join isLine_toString)

theorem IsName.isLine {name : String} (h : IsName name.toList) : IsLine name := by
  intro hFeed
  exact absurd (h.isNameChar '\n' hFeed) (by decide)

theorem isLine_label (c : Construct) : IsLine c.label := by
  cases c <;> simp [Construct.label, IsLine]

theorem isLine_enumerate {labels : List String} (h : ∀ label ∈ labels, IsLine label) :
    IsLine (enumerate labels) := by
  have hExpected : IsLine "expected " := by simp [IsLine]
  have hOr : IsLine " or " := by simp [IsLine]
  unfold enumerate
  split
  · simp [IsLine]
  · exact isLine_append.mpr ⟨hExpected, h _ (by simp)⟩
  · simp only [isLine_append]
    exact ⟨⟨⟨hExpected, h _ (by simp)⟩, hOr⟩, h _ (by simp)⟩
  · have hFront : IsLine (String.join (labels.dropLast.map (· ++ ", "))) := by
      apply isLine_join
      intro s hMem
      obtain ⟨label, hLabel, rfl⟩ := List.mem_map.mp hMem
      exact isLine_append.mpr ⟨h label (List.mem_of_mem_dropLast hLabel), by simp [IsLine]⟩
    have hLast : IsLine (labels.getLast?.getD "") := by
      cases hLast : labels.getLast? with
      | none => simp [IsLine]
      | some label => exact h label (List.mem_of_getLast? hLast)
    simp only [isLine_append]
    exact ⟨⟨⟨hExpected, hFront⟩, by simp [IsLine]⟩, hLast⟩

theorem isLine_explain (expected : List Construct) : IsLine (explain expected) := by
  apply isLine_enumerate
  intro label hMem
  obtain ⟨c, -, rfl⟩ := List.mem_map.mp hMem
  exact isLine_label c

/-- **A fault is told on one line**, if the reference that it quotes stands on one. -/
theorem isLine_fault_iff {fault : Fault} (hNames : ∀ name ∈ fault.names, IsName name.toList) :
    IsLine fault.message ↔ ∀ written, fault = .unknownReference written → IsLine written := by
  have hLines : ∀ name ∈ fault.names, IsLine name := fun name hMem => (hNames name hMem).isLine
  cases fault with
  | unexpected expected =>
      have hMessage : IsLine (explain expected) := isLine_explain expected
      exact iff_of_true hMessage (by simp)
  | invalidUtf8 =>
      have hMessage : IsLine "invalid UTF-8" := by simp [IsLine]
      exact iff_of_true hMessage (by simp)
  | unknownReference written =>
      show IsLine ("unknown entity `&" ++ written ++ "`") ↔ _
      simp [IsLine]
  | duplicateAttribute name element =>
      have hName : IsLine name := hLines name (by simp [Fault.names])
      have hElement : IsLine element := hLines element (by simp [Fault.names])
      have hMessage :
          IsLine ("duplicate attribute `" ++ name ++ "` on <" ++ element ++ ">") := by
        simp only [isLine_append, hName, hElement]
        simp [IsLine]
      exact iff_of_true hMessage (by simp)
  | mismatchedClose close name line =>
      have hClose : IsLine close := hLines close (by simp [Fault.names])
      have hName : IsLine name := hLines name (by simp [Fault.names])
      have hMessage : IsLine ("closing tag </" ++ close ++ "> does not match <" ++ name
          ++ "> opened at line " ++ toString line) := by
        simp only [isLine_append, hClose, hName, isLine_toString]
        simp [IsLine]
      exact iff_of_true hMessage (by simp)

end Markup

namespace Template

open Markup (Tag Node Document IsName)
open Text (IsLine isLine_append isLine_toString)

/-! ## What is remarked -/

/-- The loop that is dropped from an element is the one that has not the form of one. -/
theorem dropped_of_classify {options : Options} {tag : Tag} {classified : Classified}
    (h : classify options tag = .ok classified) : classified.dropped = malformedLoop? tag := by
  unfold classify at h
  unfold malformedLoop?
  cases hLoop : loopAttribute? tag.attributes with
  | none =>
      rw [hLoop] at h
      cases h
      rfl
  | some a =>
      rw [hLoop] at h
      rw [Option.bind_some]
      cases hRead : Loop.read? a.value with
      | none =>
          simp only [hRead] at h
          split at h
          · cases h
          · cases h
            rfl
      | some loop =>
          simp only [hRead] at h
          split at h
          · cases h
          · cases h
            rfl

theorem diagnostics_of_classify {options : Options} {tag : Tag} {classified : Classified}
    (h : classify options tag = .ok classified) :
    classified.diagnostics = ((malformedLoop? tag).map DroppedLoop.diagnostic).toList := by
  rw [Classified.diagnostics, dropped_of_classify h]
  cases malformedLoop? tag <;> rfl

/-- The remarks on nodes are those on their dropped loops. -/
theorem diagnosticsAll_of_ofNodes {options : Options} {nodes : List Node} {plans : List Plan}
    (h : Plan.ofNodes options nodes = .ok plans) :
    Plan.diagnosticsAll plans =
      ((Node.tagsAll nodes).filterMap malformedLoop?).map DroppedLoop.diagnostic := by
  induction nodes using Node.induction_elements generalizing plans with
  | nil =>
      rw [Plan.ofNodes] at h
      cases h
      rfl
  | skip node rest hNode ih =>
      rw [ofNodes_skip options hNode] at h
      rw [tags_skip hNode]
      exact ih h
  | element tag content rest ihContent ihRest =>
      obtain ⟨classified, children, others, hTag, hChildren, hOthers, rfl⟩ :=
        ofNodes_element_ok h
      rw [Plan.diagnosticsAll, Plan.diagnostics, ihContent hChildren, ihRest hOthers,
        diagnostics_of_classify hTag, Node.tagsAll_element, List.filterMap_cons]
      cases malformedLoop? tag <;> simp

/-- **What is remarked on a document**: the loops that were dropped, and a directive
on its root element. -/
theorem mem_documentDiagnostics_iff {options : Options} {document : Document} {plan : Plan}
    (h : Plan.ofDocument options document = .ok plan) (d : Diagnostic) :
    d ∈ plan.documentDiagnostics ↔
      (∃ tag ∈ document.tags, ∃ loop, malformedLoop? tag = some loop ∧ loop.diagnostic = d) ∨
        plan.classified.directive.isSome ∧ d = Plan.ignoredDirective document.root := by
  obtain ⟨classified, children, hRoot, hChildren, rfl⟩ := ofDocument_ok h
  have hDropped : (∃ tag ∈ document.tags, ∃ loop, malformedLoop? tag = some loop ∧
      loop.diagnostic = d) ↔ d ∈ (document.tags.filterMap malformedLoop?).map
        DroppedLoop.diagnostic := by
    simp only [List.mem_map, List.mem_filterMap]
    constructor
    · rintro ⟨tag, hTag, loop, hLoop, rfl⟩
      exact ⟨loop, ⟨tag, hTag, hLoop⟩, rfl⟩
    · rintro ⟨loop, ⟨tag, hTag, hLoop⟩, rfl⟩
      exact ⟨tag, hTag, loop, hLoop, rfl⟩
  have hHere : (document.tags.filterMap malformedLoop?).map DroppedLoop.diagnostic =
      classified.diagnostics ++ Plan.diagnosticsAll children := by
    rw [Document.tags_eq, List.filterMap_cons, diagnostics_of_classify hRoot,
      diagnosticsAll_of_ofNodes hChildren]
    cases malformedLoop? document.root <;> rfl
  rw [hDropped, hHere, Plan.documentDiagnostics, Plan.classified]
  cases classified.directive.isSome with
  | true => simp only [List.mem_append, if_true, List.mem_singleton, true_and]; tauto
  | false => simp

/-! ## Lines -/

/-- **A dropped loop is remarked on one line exactly if its value stands on one.** -/
theorem isLine_diagnostic_iff {tag : Tag} (hNamed : tag.Named) {loop : DroppedLoop}
    (h : malformedLoop? tag = some loop) :
    IsLine loop.diagnostic.text ↔ IsLine loop.attrib.value := by
  obtain ⟨a, hAttribute, hLoop⟩ := Option.bind_eq_some_iff.mp h
  split at hLoop
  · obtain rfl := Option.some.inj hLoop
    have hName : IsLine a.name :=
      (hNamed.attributes a (List.mem_of_find?_eq_some hAttribute)).isLine
    have hElement : IsLine tag.name := hNamed.name.isLine
    simp only [Diagnostic.text, DroppedLoop.diagnostic, isLine_append, isLine_toString, hName,
      hElement]
    simp [IsLine]
  · cases hLoop

theorem isLine_ignoredDirective {tag : Tag} (hNamed : tag.Named) :
    IsLine (Plan.ignoredDirective tag).text := by
  simp only [Diagnostic.text, Plan.ignoredDirective, isLine_append, isLine_toString,
    hNamed.name.isLine]
  simp [IsLine]

/-- **The remarks on a document stand on lines of their own exactly if the values of its
dropped loops do.** -/
theorem isLine_documentDiagnostics_iff {options : Options} {document : Document} {plan : Plan}
    (hPlan : Plan.ofDocument options document = .ok plan)
    (hNamed : ∀ tag ∈ document.tags, tag.Named) :
    (∀ d ∈ plan.documentDiagnostics, IsLine d.text) ↔
      ∀ tag ∈ document.tags, ∀ loop, malformedLoop? tag = some loop →
        IsLine loop.attrib.value := by
  constructor
  · intro h tag hTag loop hLoop
    rw [← isLine_diagnostic_iff (hNamed tag hTag) hLoop]
    exact h _ ((mem_documentDiagnostics_iff hPlan _).mpr (.inl ⟨tag, hTag, loop, hLoop, rfl⟩))
  · intro h d hMem
    rcases (mem_documentDiagnostics_iff hPlan d).mp hMem with
      ⟨tag, hTag, loop, hLoop, rfl⟩ | ⟨_, rfl⟩
    · exact (isLine_diagnostic_iff (hNamed tag hTag) hLoop).mpr (h tag hTag loop hLoop)
    · apply isLine_ignoredDirective
      apply hNamed
      rw [Document.tags_eq]
      exact List.mem_cons_self

/-- **An error that a build passes over is told on one line**, if its path and the
reference that it quotes stand on one. -/
theorem isLine_message_iff {e : CompileError} (hSkippable : e.isSkippable = true)
    (hPath : ∀ path, e = .templateNotFound path → IsLine path.shown)
    (hNames : ∀ position fault, e = .malformedMarkup position fault →
      ∀ name ∈ fault.names, IsName name.toList) :
    IsLine e.message ↔ ∀ position written,
      e = .malformedMarkup position (.unknownReference written) → IsLine written := by
  cases e with
  | templateNotFound path =>
      have hMessage : IsLine ("no markup document at " ++ path.shown) := by
        simp only [isLine_append, hPath path rfl]
        simp [IsLine]
      exact iff_of_true hMessage (by simp)
  | noRootElement =>
      have hMessage : IsLine "markup document has no root element" := by simp [IsLine]
      exact iff_of_true hMessage (by simp)
  | malformedMarkup position fault =>
      have hFault := Markup.isLine_fault_iff (hNames position fault rfl)
      have hMessage : IsLine ("malformed markup at line " ++ toString position.line ++ ", column "
          ++ toString position.column ++ ": " ++ fault.message) ↔ IsLine fault.message := by
        simp only [isLine_append, isLine_toString]
        simp [IsLine]
      refine hMessage.trans (hFault.trans ?_)
      constructor
      · intro h _ written hEq
        exact h written (CompileError.malformedMarkup.inj hEq).2
      · intro h written hEq
        exact h position written (congrArg _ hEq)
  | malformedDirective loop => cases hSkippable
  | conflictingDirectives element line => cases hSkippable
  | invalidHost host => cases hSkippable
  | unreadable path cause => cases hSkippable

end Template

end LiveMarkup
