import LiveMarkup.Live.Arena

/-!
# What hangs below a live node

Three views of the live tree under a handle: the first node with a tag, the shape, and a snapshot as
indented text. All pass over handles whose node is gone.

Child lists may form cycles, on which there is no tree to be seen, so the views descend only as far as
the arena has slots. On an arena without cycles no path is longer than that and nothing is cut off.
-/

namespace LiveMarkup.Live

variable {H : Type}

namespace Arena

/-- The first node with the tag among those at most `depth` levels below the handle, in pre-order. -/
def findWithin (arena : Arena H) (tag : String) : Nat → Handle → Option Handle
  | 0, _ => none
  | depth + 1, id =>
    match arena.node? id with
    | none => none
    | some node =>
      if node.tag == tag then some id
      else node.children.findSome? (arena.findWithin tag depth)

/-- The first node with the tag at or below the handle, in pre-order. -/
def find? (arena : Arena H) (root : Handle) (tag : String) : Option Handle :=
  arena.findWithin tag (arena.slots.length + 1) root

/-- The type tags of the nodes at most `depth` levels below the handle. -/
def shapeWithin (arena : Arena H) : Nat → Handle → Option Shape
  | 0, _ => none
  | depth + 1, id =>
    match arena.node? id with
    | none => none
    | some node => some (.node node.tag (node.children.filterMap (arena.shapeWithin depth)))

/-- The type tags of the nodes at and below the handle. -/
def shape? (arena : Arena H) (root : Handle) : Option Shape :=
  arena.shapeWithin (arena.slots.length + 1) root

/-- The nodes at most `depth` levels below the handle in pre-order, each with its level. -/
def outlineWithin (arena : Arena H) : Nat → Nat → Handle → List (Nat × Node H)
  | 0, _, _ => []
  | depth + 1, level, id =>
    match arena.node? id with
    | none => []
    | some node =>
      (level, node) :: node.children.flatMap (arena.outlineWithin depth (level + 1))

/-- The nodes at and below the handle in pre-order, each with its level. -/
def outline (arena : Arena H) (root : Handle) : List (Nat × Node H) :=
  arena.outlineWithin (arena.slots.length + 1) 0 root

end Arena

/-- A node as one line: its tag, its properties by ascending name, and the events it waits for. -/
def Node.line (level : Nat) (node : Node H) : String :=
  String.join (List.replicate level "  ") ++ node.tag
    ++ String.join (node.properties.sorted.map fun (name, value) => " " ++ name ++ "=" ++ value.debug)
    ++ String.join (node.handlers.map fun (event, _) => " on:" ++ event)
    ++ "\n"

/-- The live tree as text, a node a line, indented by its level. -/
def Arena.snapshot (arena : Arena H) (root : Handle) : String :=
  String.join ((arena.outline root).map fun (level, node) => node.line level)

end LiveMarkup.Live
