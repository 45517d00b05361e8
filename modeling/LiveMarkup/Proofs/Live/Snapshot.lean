import LiveMarkup.Proofs.Live.Position

/-!
# The snapshot of a live tree

A snapshot has a line for every node below a handle. For the root of a live tree
the lines are read off the value, and the handles do not occur in them:
`LiveTree.anonymous` takes the handles away, and what is left says what the
lines are.

## Main results

* `snapshot_of_holds` — **the snapshot that an arena gives for the root of a
  live tree** has the lines of the value.
* `lines_anonymous` — handles are not to be seen in a snapshot.
-/

namespace LiveMarkup.Live

variable {H : Type}

namespace LiveTree

mutual

/-- The lines of a live tree in a snapshot, with the root at the given level. -/
def lines (level : Nat) : LiveTree H → List String
  | node _ tag properties handlers children =>
    Node.line level ⟨tag, properties, handlers, []⟩ :: linesAll (level + 1) children

/-- The lines of live trees in a row. -/
def linesAll (level : Nat) : List (LiveTree H) → List String
  | [] => []
  | tree :: rest => lines level tree ++ linesAll level rest

end

mutual

/-- The live tree with its handles taken away. -/
def anonymous : LiveTree H → LiveTree H
  | node _ tag properties handlers children =>
    node .null tag properties handlers (anonymousAll children)

/-- Live trees in a row with their handles taken away. -/
def anonymousAll : List (LiveTree H) → List (LiveTree H)
  | [] => []
  | tree :: rest => anonymous tree :: anonymousAll rest

end

mutual

/-- Handles are not to be seen in a snapshot. -/
theorem lines_anonymous : (tree : LiveTree H) → (level : Nat) →
    tree.anonymous.lines level = tree.lines level
  | node _ _ _ _ children, level => by
      rw [anonymous, lines, lines, linesAll_anonymousAll children]

theorem linesAll_anonymousAll : (trees : List (LiveTree H)) → (level : Nat) →
    linesAll level (anonymousAll trees) = linesAll level trees
  | [], _ => rfl
  | tree :: rest, level => by
      rw [anonymousAll, linesAll, linesAll, lines_anonymous tree, linesAll_anonymousAll rest]

end

end LiveTree

open LiveTree (root nodes nodesAll idsAll_cons)

mutual

/-- The lines below the root of a live tree, seen to a depth that is no less
than the number of its nodes. -/
theorem outlineWithin_of_holds (arena : Arena H) : (tree : LiveTree H) → (depth level : Nat) →
    arena.Holds tree.nodes → tree.ids.length ≤ depth →
    (arena.outlineWithin depth level tree.root).map (fun entry => entry.2.line entry.1) =
      tree.lines level
  | .node id tag properties handlers children, depth, level, hHolds, hDepth => by
      rw [nodes, Arena.Holds, Slots.holds_cons] at hHolds
      rw [LiveTree.ids_node, List.length_cons] at hDepth
      obtain ⟨depth, rfl⟩ : ∃ less, depth = less + 1 := ⟨depth - 1, by omega⟩
      have hNode : arena.node? id = some ⟨tag, properties, handlers, children.map root⟩ := hHolds.1
      have hBelow := outlineAllWithin_of_holds arena children depth (level + 1) hHolds.2 (by omega)
      rw [root, Arena.outlineWithin, hNode, LiveTree.lines]
      simp only [List.map_cons, hBelow]
      rfl

theorem outlineAllWithin_of_holds (arena : Arena H) : (trees : List (LiveTree H)) →
    (depth level : Nat) → arena.Holds (nodesAll trees) → (LiveTree.idsAll trees).length ≤ depth →
    ((trees.map root).flatMap (arena.outlineWithin depth level)).map
        (fun entry => entry.2.line entry.1) =
      LiveTree.linesAll level trees
  | [], _, _, _, _ => rfl
  | tree :: rest, depth, level, hHolds, hDepth => by
      rw [nodesAll, Arena.Holds, Slots.holds_append] at hHolds
      rw [idsAll_cons, List.length_append] at hDepth
      rw [List.map_cons, List.flatMap_cons, List.map_append,
        outlineWithin_of_holds arena tree depth level hHolds.1 (by omega),
        outlineAllWithin_of_holds arena rest depth level hHolds.2 (by omega), LiveTree.linesAll]

end

/-- **The arena writes the tree down**: the snapshot that it gives for the root
of a live tree has the lines of the value. -/
theorem snapshot_of_holds {arena : Arena H} {tree : LiveTree H} (hHolds : arena.Holds tree.nodes)
    (hNodup : tree.ids.Nodup) : arena.snapshot tree.root = String.join (tree.lines 0) := by
  have hLength := Slots.Holds.length_le hHolds hNodup
  have hDepth : tree.ids.length ≤ arena.slots.length + 1 := by
    rw [LiveTree.ids, List.length_map]
    omega
  rw [Arena.snapshot, Arena.outline, ← outlineWithin_of_holds arena tree _ 0 hHolds hDepth]

end LiveMarkup.Live
