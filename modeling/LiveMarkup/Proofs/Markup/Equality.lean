import LiveMarkup.Markup.Document

/-!
# Equality of documents

Nodes hold lists of nodes, and so equality of nodes is decided together with
equality of such lists: `Node.same` compares two nodes and `Node.sameAll` the
content of two elements, piece by piece. What has been read from a given source can
then be checked by evaluation.
-/

namespace LiveMarkup.Markup

mutual

/-- Whether two nodes are the same, lines included. -/
def Node.same : Node → Node → Bool
  | .element tag content, .element tag' content' => tag == tag' && Node.sameAll content content'
  | .text line data, .text line' data' => line == line' && data == data'
  | .comment line body, .comment line' body' => line == line' && body == body'
  | .instruction line target data, .instruction line' target' data' =>
    line == line' && target == target' && data == data'
  | _, _ => false

/-- Whether two lists of nodes are the same, piece by piece. -/
def Node.sameAll : List Node → List Node → Bool
  | [], [] => true
  | node :: rest, node' :: rest' => node.same node' && Node.sameAll rest rest'
  | _, _ => false

end

mutual

theorem Node.same_iff : (node other : Node) → (node.same other = true ↔ node = other)
  | .element tag content, other => by
      cases other <;> simp [Node.same, Node.sameAll_iff content]
  | .text line data, other => by cases other <;> simp [Node.same]
  | .comment line body, other => by cases other <;> simp [Node.same]
  | .instruction line target data, other => by cases other <;> simp [Node.same, and_assoc]

theorem Node.sameAll_iff : (nodes others : List Node) →
    (Node.sameAll nodes others = true ↔ nodes = others)
  | [], others => by cases others <;> simp [Node.sameAll]
  | node :: rest, others => by
      cases others <;> simp [Node.sameAll, Node.same_iff node, Node.sameAll_iff rest]

end

instance : DecidableEq Node := fun node other => decidable_of_iff _ (Node.same_iff node other)

deriving instance DecidableEq for Document

end LiveMarkup.Markup
