import LiveMarkup.Proofs.Markup.Completeness
import LiveMarkup.Proofs.Template.Faults

/-!
# Compiling the layouts of a document

The code for a text depends on nothing but the document that the text is a layout
of: how values are quoted and spelled, where white space and comments stand, and
whether elements close themselves is not to be seen in it.

## Main results

* `exists_written` — a layout is taken as a tree that is read as the document.
* `compile_of_layout` — **a layout compiles as the plan of its document says**.
* `compile_congr` — two layouts of one document have the same code.
-/

namespace LiveMarkup

open Markup (Document DocumentText)

namespace Markup.DocumentText

open Reader

/-- No second byte-order mark stands behind the first. -/
theorem endsHere_mark {declaration front root : List Char} {before : List Instruction}
    {tag : Tag} {content : List Node} {line : Nat}
    (hDeclaration : DeclarationText declaration ∨ declaration = [])
    (hFront : AsidesText front before) (hRoot : ElementText line root tag content)
    (back : List Char) :
    EndsHere (· == '\ufeff') (declaration ++ (front ++ (root ++ back))) := by
  rcases hDeclaration with hThere | rfl
  · exact hThere.endsHere_mark _
  · refine hFront.endsHere_mark ?_
    obtain ⟨c, tail, rfl, -⟩ := hRoot.begins
    exact endsHere_cons (by decide) _

/-- **A layout is taken as a tree that is read as the document.** -/
theorem exists_written {text : List Char} {document : Document}
    (h : DocumentText text document) :
    ∃ written, readWritten (dropByteOrderMark text) = .ok written ∧
      written.read = .ok document := by
  cases h with
  | @mk mark declaration front root back _ _ _ _ hMark hDeclaration hFront hRoot hBack =>
      obtain ⟨written, after, hTook, hRead⟩ := took_document hDeclaration hFront hRoot hBack
      have hNoMark := endsHere_mark (hDeclaration.imp id And.left) hFront hRoot back
      refine ⟨written, ?_, hRead⟩
      rw [dropByteOrderMark_append hMark hNoMark, readWritten_of_took hTook]

end Markup.DocumentText

namespace Template

/-- **A layout compiles as the plan of its document says.** -/
theorem compile_of_layout (options : Options) {host source identifier : String}
    {document : Document} (hHost : Code.typeName? host = some identifier)
    (hText : DocumentText source.toList document) :
    compile options host source =
      match Plan.ofDocument options document with
      | .error e => .error (.ofDirectiveError e)
      | .ok plan => .ok (viewOf options none host identifier document plan) := by
  obtain ⟨written, hWritten, hRead⟩ := hText.exists_written
  refine compile_of_read options hHost ?_
  rw [Document.read, hWritten]
  exact hRead

/-- **Two layouts of one document have the same code.** -/
theorem compile_congr (options : Options) (host : String) {source other : String}
    {document : Document} (hText : DocumentText source.toList document)
    (hOther : DocumentText other.toList document) :
    compile options host source = compile options host other := by
  cases hHost : Code.typeName? host with
  | none =>
      unfold compile compilation
      rw [hHost]
  | some identifier =>
      rw [compile_of_layout options hHost hText, compile_of_layout options hHost hOther]

end Template

end LiveMarkup
