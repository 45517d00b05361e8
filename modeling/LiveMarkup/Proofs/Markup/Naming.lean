import LiveMarkup.Proofs.Markup.TakenVerbatim

/-!
# Where names come from

Elements and attributes are named as the grammar has it, whatever else stands in a
text: in the tree as it is written, in the document that it is read as, and in the
faults that keep it from being one. So what a document or a fault quotes that is no
name, the values of attributes and unknown references, is all that may hold
characters of any kind.

## Main results

* `Verbatim.named` — names in the tree that the grammar gives.
* `Document.read_named` — **names in documents and in faults**.
-/

namespace LiveMarkup.Markup

/-! ## The tree as it is written -/

/-- The names in the tags of an element are names of the grammar. -/
structure WrittenTag.Named (tag : WrittenTag) : Prop where
  name : IsName tag.name.toList
  attributes : ∀ a ∈ tag.attributes, IsName a.name.toList
  close : ∀ c ∈ tag.close, IsName c.name.toList

mutual

/-- The names of the elements in a piece are names of the grammar. -/
def WrittenNode.Named : WrittenNode → Prop
  | .element tag content => tag.Named ∧ WrittenNode.NamedAll content
  | .text _ _ | .cdata _ _ | .comment _ _ | .instruction _ _ _ => True

/-- The names of the elements in pieces in a row are names of the grammar. -/
def WrittenNode.NamedAll : List WrittenNode → Prop
  | [] => True
  | node :: rest => node.Named ∧ WrittenNode.NamedAll rest

end

theorem VerbatimAttribute.isName_writtenAll (attributes : List VerbatimAttribute)
    (p : Text.Position) : ∀ a ∈ writtenAll p attributes, IsName a.name.toList := by
  induction attributes generalizing p with
  | nil => exact fun _ hMem => absurd hMem List.not_mem_nil
  | cons first rest ih =>
      rw [writtenAll, List.forall_mem_cons, written, String.toList_ofList]
      exact ⟨first.isName, ih _⟩

theorem VerbatimTag.named (tag : VerbatimTag) (p : Text.Position) {close : Option WrittenClose}
    (hClose : ∀ c ∈ close, IsName c.name.toList) : (tag.written p close).Named where
  name := by
    rw [written, String.toList_ofList]
    exact tag.isName
  attributes := VerbatimAttribute.isName_writtenAll tag.attributes _
  close := hClose

namespace Verbatim

mutual

/-- **The names in the tree of a piece are names of the grammar.** -/
theorem named : (piece : Verbatim) → (p : Text.Position) → (piece.written p).Named
  | single tag, p => by
      rw [written, WrittenNode.Named, WrittenNode.NamedAll]
      exact ⟨tag.named p fun _ hMem => absurd hMem (Option.not_mem_none _), trivial⟩
  | element tag content close, p => by
      rw [written, WrittenNode.Named]
      refine ⟨tag.named p fun c hMem => ?_, namedAll content _⟩
      rw [← Option.some.inj hMem, VerbatimClose.written, String.toList_ofList]
      exact close.isName
  -- no other piece has elements in it
  | run .., _ => by
      rw [written, WrittenNode.Named]
      trivial
  | cdata .., _ => by
      rw [written, WrittenNode.Named]
      trivial
  | comment .., _ => by
      rw [written, WrittenNode.Named]
      trivial
  | instruction .., _ => by
      rw [written, WrittenNode.Named]
      trivial

theorem namedAll : (pieces : List Verbatim) → (p : Text.Position) →
    WrittenNode.NamedAll (writtenAll p pieces)
  | [], _ => by
      rw [writtenAll, WrittenNode.NamedAll]
      trivial
  | piece :: rest, p => by
      rw [writtenAll, WrittenNode.NamedAll]
      exact ⟨named piece p, namedAll rest _⟩

end

end Verbatim

/-- The names in the tree of a root element are names of the grammar. -/
theorem named_of_readWritten {source : String} {written : WrittenDocument}
    (hWritten : readWritten (dropByteOrderMark source.toList) = .ok written) {tag : WrittenTag}
    {content : List WrittenNode} (hRoot : written.root = some (tag, content)) :
    tag.Named ∧ WrittenNode.NamedAll content := by
  obtain ⟨verbatim, -, -, hElement⟩ := exists_document hWritten hRoot
  have hNamed := verbatim.root.named (Text.Position.start.advance verbatim.opening)
  rwa [hElement, WrittenNode.Named] at hNamed

/-! ## Checks -/

/-- The names in a tag are names of the grammar. -/
structure Tag.Named (tag : Tag) : Prop where
  name : IsName tag.name.toList
  attributes : ∀ a ∈ tag.attributes, IsName a.name.toList

/-- The names that a fault tells. -/
def Fault.names : Fault → List String
  | duplicateAttribute name element => [name, element]
  | mismatchedClose close name _ => [close, name]
  | _ => []

/-- The names that an error tells are names of the grammar. -/
def ReadError.Named : ReadError → Prop
  | malformed _ fault => ∀ name ∈ fault.names, IsName name.toList
  | noRootElement => True

/-- What is read has the property, and errors tell names of the grammar. -/
def Names {α : Type} (holds : α → Prop) : Except ReadError α → Prop
  | .ok a => holds a
  | .error e => e.Named

theorem Names.bind {α β : Type} {holds : α → Prop} {next : β → Prop} {result : Except ReadError α}
    {f : α → Except ReadError β} (h : Names holds result)
    (hNext : ∀ a, holds a → Names next (f a)) : Names next (result >>= f) := by
  cases result with
  | error e => exact h
  | ok a => exact hNext a h

theorem names_readText (start : Text.Position) (raw : List Char) :
    Names (fun _ => True) (readText start raw) := by
  rw [readText]
  split
  · trivial
  · exact fun _ hMem => absurd hMem List.not_mem_nil

theorem names_readAttributes {element : String} {before : List Attribute}
    {written : List WrittenAttribute} (hElement : IsName element.toList)
    (hBefore : ∀ a ∈ before, IsName a.name.toList)
    (hWritten : ∀ a ∈ written, IsName a.name.toList) :
    Names (fun attributes => ∀ a ∈ attributes, IsName a.name.toList)
      (readAttributes element before written) := by
  induction written generalizing before with
  | nil =>
      rw [readAttributes]
      exact hBefore
  | cons first rest ih =>
      have hFirst := hWritten first List.mem_cons_self
      rw [readAttributes]
      refine (names_readText _ _).bind fun value _ => ?_
      split
      · intro name hMem
        rcases List.mem_pair.mp hMem with rfl | rfl
        · exact hFirst
        · exact hElement
      · apply ih
        · intro a hMem
          rcases List.mem_append.mp hMem with hBefore' | hHere
          · exact hBefore a hBefore'
          · rw [List.mem_singleton.mp hHere]
            exact hFirst
        · exact fun a hMem => hWritten a (List.mem_cons_of_mem first hMem)

theorem names_checkClose {tag : WrittenTag} (h : tag.Named) :
    Names (fun _ => True) tag.checkClose := by
  rw [WrittenTag.checkClose]
  cases hClose : tag.close with
  | none => trivial
  | some close =>
      simp only
      split
      · trivial
      · intro name hMem
        rcases List.mem_pair.mp hMem with rfl | rfl
        · exact h.close close (by rw [hClose]; rfl)
        · exact h.name

/-- The checks of an element, whatever is made of what they give. -/
theorem names_element {γ : Type} {tag : WrittenTag} {pieces : List WrittenNode}
    {f : List Attribute → List Node → γ} {holds : γ → Prop} (hTag : tag.Named)
    (hPieces : Names (fun nodes => ∀ inner ∈ Node.tagsAll nodes, inner.Named)
      (WrittenNode.readAll pieces))
    (hHolds : ∀ attributes nodes, Tag.Named ⟨tag.name, attributes, tag.start.line⟩ →
      (∀ inner ∈ Node.tagsAll nodes, inner.Named) → holds (f attributes nodes)) :
    Names holds (do
      let attributes ← readAttributes tag.name [] tag.attributes
      let nodes ← WrittenNode.readAll pieces
      tag.checkClose
      return f attributes nodes) := by
  have hNone : ∀ a ∈ ([] : List Attribute), IsName a.name.toList :=
    fun _ hMem => absurd hMem List.not_mem_nil
  have hRead := names_readAttributes hTag.name hNone hTag.attributes
  refine hRead.bind fun attributes hAttributes => ?_
  refine hPieces.bind fun nodes hNodes => ?_
  refine (names_checkClose hTag).bind fun _ _ => ?_
  exact hHolds attributes nodes ⟨hTag.name, hAttributes⟩ hNodes

theorem Node.tags_eq_nil {node : Node} (h : node.isElement = false) : node.tags = [] := by
  cases node with
  | element tag content => cases h
  | _ => rfl

/-- A piece that is read as no element has no names. -/
theorem names_other {node : Node} (h : node.isElement = false) :
    ∀ found ∈ some node, ∀ tag ∈ found.tags, tag.Named := by
  intro found hFound tag hMem
  obtain rfl := Option.some.inj hFound
  rw [Node.tags_eq_nil h] at hMem
  cases hMem

mutual

theorem names_read : (node : WrittenNode) → node.Named →
    Names (fun found => ∀ node ∈ found, ∀ tag ∈ node.tags, tag.Named) node.read
  | .element tag content, h => by
      rw [WrittenNode.Named] at h
      rw [WrittenNode.read]
      refine names_element h.1 (names_readAll content h.2) ?_
      intro attributes nodes hTag hNodes node hNode
      obtain rfl := Option.some.inj hNode
      intro inner hMem
      rw [Node.tags] at hMem
      rcases List.mem_cons.mp hMem with rfl | hMem
      · exact hTag
      · exact hNodes inner hMem
  | .text start raw, _ => by
      rw [WrittenNode.read]
      split
      · exact fun _ hMem => nomatch hMem
      · exact (names_readText _ _).bind fun text _ => names_other rfl
  | .cdata start body, _ => by
      rw [WrittenNode.read]
      exact names_other rfl
  | .comment start body, _ => by
      rw [WrittenNode.read]
      exact names_other rfl
  | .instruction start target data, _ => by
      rw [WrittenNode.read]
      exact names_other rfl

theorem names_readAll : (nodes : List WrittenNode) → WrittenNode.NamedAll nodes →
    Names (fun found => ∀ tag ∈ Node.tagsAll found, tag.Named) (WrittenNode.readAll nodes)
  | [], _ => by
      rw [WrittenNode.readAll]
      exact fun _ hMem => nomatch hMem
  | node :: rest, h => by
      rw [WrittenNode.NamedAll] at h
      rw [WrittenNode.readAll]
      refine (names_read node h.1).bind fun found hFound => ?_
      refine (names_readAll rest h.2).bind fun others hOthers => ?_
      cases found with
      | none => exact hOthers
      | some node =>
          intro tag hMem
          rw [Node.tagsAll, List.mem_append] at hMem
          rcases hMem with hHere | hBehind
          · exact hFound node rfl tag hHere
          · exact hOthers tag hBehind

end

/-! ## Documents -/

/-- **Elements and attributes of a document have names of the grammar**, and a text
that is no document is told to be none in terms of such names. -/
theorem Document.read_named (source : String) :
    Names (fun document => ∀ tag ∈ document.tags, tag.Named) (Document.read source) := by
  rw [Document.read]
  have hWritten : Names (fun written : WrittenDocument => ∀ tag content,
      written.root = some (tag, content) → tag.Named ∧ WrittenNode.NamedAll content)
      (readWritten (dropByteOrderMark source.toList)) := by
    cases hRun : readWritten (dropByteOrderMark source.toList) with
    | ok written => exact fun tag content => named_of_readWritten hRun
    | error e =>
        rw [readWritten] at hRun
        split at hRun
        · cases hRun
        · cases hRun
          exact fun _ hMem => absurd hMem List.not_mem_nil
  refine hWritten.bind fun written hNames => ?_
  rw [WrittenDocument.read]
  cases hRoot : written.root with
  | none => trivial
  | some root =>
      obtain ⟨tag, content⟩ := root
      obtain ⟨hTag, hContent⟩ := hNames tag content hRoot
      refine names_element hTag (names_readAll content hContent) ?_
      intro attributes nodes hRootTag hNodes inner hMem
      rw [Document.tags, Document.rootNode, Node.tags] at hMem
      rcases List.mem_cons.mp hMem with rfl | hMem
      · exact hRootTag
      · exact hNodes inner hMem

end LiveMarkup.Markup
