import LiveMarkup.Proofs.Markup.TakenVerbatim

/-!
# Where nodes stand along a text

A node begins somewhere in the text that it is read from, and that is where its line
comes from. Going through the text from the left one comes upon the nodes in document
order: an element before what is in it, and that before what stands behind the
element. `Along` says this of a text from a position on.

Nothing is asked of the text here. Values may spell what they do in any way, those
with signs in their references included.

## Main results

* `Along.pairwise` — nodes that stand along a text are on lines that do not decrease.
* `Verbatim.along` — what is read of a piece stands along its text.
* `along_document` — **the nodes of a document stand along its text**.
* `Document.tags_pairwise` — **the lines of elements do not decrease** in document
  order.
-/

namespace LiveMarkup.Markup

open Text (Position)

/-! ## Document order -/

mutual

/-- A node and the nodes in it, in document order. -/
def Node.inOrder : Node → List Node
  | .element tag content => .element tag content :: Node.inOrderAll content
  | node => [node]

/-- Nodes in a row and the nodes in them, in document order. -/
def Node.inOrderAll : List Node → List Node
  | [] => []
  | node :: rest => node.inOrder ++ Node.inOrderAll rest

end

/-- The tag of a node that is an element. -/
def Node.tag? : Node → Option Tag
  | .element tag _ => some tag
  | _ => none

theorem Node.line_of_tag? {node : Node} {tag : Tag} (h : node.tag? = some tag) :
    tag.line = node.line := by
  cases node with
  | element tag content =>
      cases h
      rfl
  | _ => cases h

mutual

/-- The tags in a node are those of the elements in it. -/
theorem Node.filterMap_inOrder : (node : Node) → node.inOrder.filterMap Node.tag? = node.tags
  | .element tag content => by
      have hTag : Node.tag? (.element tag content) = some tag := rfl
      rw [Node.inOrder, Node.tags, List.filterMap_cons_some hTag, Node.filterMap_inOrderAll content]
  | .text _ _ => rfl
  | .comment _ _ => rfl
  | .instruction _ _ _ => rfl

theorem Node.filterMap_inOrderAll : (nodes : List Node) →
    (Node.inOrderAll nodes).filterMap Node.tag? = Node.tagsAll nodes
  | [] => rfl
  | node :: rest => by
      rw [Node.inOrderAll, Node.tagsAll, List.filterMap_append, Node.filterMap_inOrder node,
        Node.filterMap_inOrderAll rest]

end

theorem Node.inOrderAll_toList_append (found : Option Node) (rest : List Node) :
    Node.inOrderAll (found.toList ++ rest) =
      (found.map Node.inOrder).getD [] ++ Node.inOrderAll rest := by
  cases found <;> rfl

/-! ## Along a text -/

/-- Going through the text from the position on one comes upon the nodes in a row, each
on the line where it is. -/
inductive Along : Position → List Char → List Node → Prop where
  | nil {p : Position} {text : List Char} : Along p text []
  | here {p : Position} {text : List Char} {node : Node} {nodes : List Node}
      (hLine : node.line = p.line) (hRest : Along p text nodes) : Along p text (node :: nodes)
  | move {p : Position} {front back : List Char} {nodes : List Node}
      (hRest : Along (p.advance front) back nodes) : Along p (front ++ back) nodes

namespace Along

theorem append {p : Position} {front back : List Char} {nodes others : List Node}
    (h : Along p front nodes) (hBack : Along (p.advance front) back others) :
    Along p (front ++ back) (nodes ++ others) := by
  induction h with
  | nil => exact .move hBack
  | here hLine _ ih => exact .here hLine (ih hBack)
  | move _ ih =>
      rw [Position.advance_append] at hBack
      rw [List.append_assoc]
      exact .move (ih hBack)

/-- A node that stands along a text is on no line in front of it. -/
theorem line_le {p : Position} {text : List Char} {nodes : List Node} (h : Along p text nodes) :
    ∀ node ∈ nodes, p.line ≤ node.line := by
  induction h with
  | nil => exact fun node hMem => absurd hMem List.not_mem_nil
  | here hLine _ ih =>
      rw [List.forall_mem_cons]
      exact ⟨hLine.ge, ih⟩
  | @move p front _ _ _ ih =>
      -- going on over text leads to no smaller line
      intro node hMem
      have hFront : p.line ≤ (p.advance front).line := by
        rw [Position.line_advance]
        exact Nat.le_add_right _ _
      exact hFront.trans (ih node hMem)

/-- **Nodes that stand along a text are on lines that do not decrease.** -/
theorem pairwise {p : Position} {text : List Char} {nodes : List Node} (h : Along p text nodes) :
    nodes.Pairwise fun a b => a.line ≤ b.line := by
  induction h with
  | nil => exact .nil
  | here hLine hRest ih =>
      exact .cons (fun other hMem => hLine.le.trans (hRest.line_le other hMem)) ih
  | move _ ih => exact ih

end Along

/-! ## What is read -/

namespace Verbatim

mutual

/-- **What is read of a piece stands along its text.** -/
theorem along : (piece : Verbatim) → {p : Position} → {found : Option Node} →
    (piece.written p).read = .ok found → Along p piece.text ((found.map Node.inOrder).getD [])
  | single tag, p, found, h => by
      obtain ⟨read, content, hReads, rfl⟩ := reads_of_read_element h
      obtain rfl : [] = content := Except.ok.inj hReads.content
      exact .here hReads.line.symm .nil
  | element tag content close, p, found, h => by
      rw [written] at h
      obtain ⟨read, nodes, hReads, rfl⟩ := reads_of_read_element h
      rw [text_element]
      -- the node is where its opening bracket is, and its content behind the tag
      have hInner := (alongAll content hReads.content).append (@Along.nil _ close.text)
      rw [List.append_nil] at hInner
      exact .here hReads.line.symm (.move hInner)
  | run raw hNe hRaw, p, found, h => by
      rw [written, WrittenNode.read] at h
      split at h
      · cases h
        exact .nil
      · obtain ⟨value, -, h⟩ := exists_of_bind_ok h
        cases h
        exact .here rfl .nil
  | cdata body hBody, p, found, h => by
      rw [written, WrittenNode.read] at h
      cases h
      exact .here rfl .nil
  | comment body hBody, p, found, h => by
      rw [written, WrittenNode.read] at h
      cases h
      exact .here rfl .nil
  | instruction target data hTarget hEnds hData, p, found, h => by
      rw [written, WrittenNode.read] at h
      cases h
      exact .here rfl .nil

theorem alongAll : (pieces : List Verbatim) → {p : Position} → {nodes : List Node} →
    WrittenNode.readAll (writtenAll p pieces) = .ok nodes →
    Along p (textAll pieces) (Node.inOrderAll nodes)
  | [], p, nodes, h => by
      rw [writtenAll, WrittenNode.readAll] at h
      cases h
      exact .nil
  | piece :: rest, p, nodes, h => by
      rw [writtenAll] at h
      obtain ⟨found, others, hPiece, hRest, rfl⟩ := readAll_cons h
      rw [Node.inOrderAll_toList_append]
      exact (along piece hPiece).append (alongAll rest hRest)

end

end Verbatim

/-! ## Documents -/

/-- **The nodes of a document stand along its text**, behind the byte order mark. -/
theorem along_document {source : String} {document : Document}
    (h : Document.read source = .ok document) :
    Along .start (dropByteOrderMark source.toList) document.rootNode.inOrder := by
  obtain ⟨verbatim, -, hBehind, hRoot⟩ := exists_verbatim_of_read h
  have hNodes := (verbatim.root.along hRoot).append (@Along.nil _ verbatim.back)
  rw [List.append_nil] at hNodes
  rw [← hBehind]
  exact .move hNodes

/-- **The lines of elements do not decrease** in document order. -/
theorem Document.tags_pairwise {source : String} {document : Document}
    (h : Document.read source = .ok document) :
    document.tags.Pairwise fun a b => a.line ≤ b.line := by
  rw [Document.tags, ← Node.filterMap_inOrder]
  refine (along_document h).pairwise.filterMap _ fun a b hLine tag hTag other hOther => ?_
  rwa [Node.line_of_tag? hTag, Node.line_of_tag? hOther]

end LiveMarkup.Markup
