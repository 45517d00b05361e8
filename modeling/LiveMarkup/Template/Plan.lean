import LiveMarkup.Template.Classify

/-!
# Plans of views

The plan of a view is its document with everything left out that does not matter to the view: the tree
of its elements, each with what its attributes mean. Elements are classified in document order, and
the first one whose attributes have no meaning decides the error.
-/

namespace LiveMarkup.Template

open Markup (Tag Node Document)

/-- An element with what its attributes mean, and the elements in it. -/
inductive Plan where
  | element (tag : Tag) (classified : Classified) (children : List Plan)
  deriving Repr

namespace Plan

/-- The opening of the element. -/
def tag : Plan → Tag
  | element tag _ _ => tag

/-- What the attributes of the element mean. -/
def classified : Plan → Classified
  | element _ classified _ => classified

/-- The elements in it. -/
def children : Plan → List Plan
  | element _ _ children => children

mutual

/-- The number of elements. -/
def size : Plan → Nat
  | element _ _ children => 1 + sizeAll children

/-- The number of elements in a list of plans. -/
def sizeAll : List Plan → Nat
  | [] => 0
  | plan :: rest => size plan + sizeAll rest

end

mutual

/-- The diagnostics of the elements, in document order. -/
def diagnostics : Plan → List Diagnostic
  | element _ classified children => classified.diagnostics ++ diagnosticsAll children

/-- The diagnostics of the elements in a list of plans, in document order. -/
def diagnosticsAll : List Plan → List Diagnostic
  | [] => []
  | plan :: rest => diagnostics plan ++ diagnosticsAll rest

end

/-- The plans of the elements among pieces of content. -/
def ofNodes (options : Options) : List Node → Except DirectiveError (List Plan)
  | [] => .ok []
  | .element tag content :: rest => do
    let classified ← classify options tag
    let children ← ofNodes options content
    let plans ← ofNodes options rest
    return element tag classified children :: plans
  | _ :: rest => ofNodes options rest

/-- The plan of a document. -/
def ofDocument (options : Options) (document : Document) : Except DirectiveError Plan := do
  let classified ← classify options document.root
  let children ← ofNodes options document.content
  return element document.root classified children

/-- The diagnostic for a directive on the root element, which has nothing to depend on. -/
def ignoredDirective (tag : Tag) : Diagnostic where
  line := tag.line
  message := "directive on root element <" ++ tag.name ++ "> ignored"

/-- The diagnostics of a whole document: as `diagnostics`, but a directive on the root element is
remarked right behind the diagnostics of that element. -/
def documentDiagnostics : Plan → List Diagnostic
  | element tag classified children =>
    classified.diagnostics
      ++ (if classified.directive.isSome then [ignoredDirective tag] else [])
      ++ diagnosticsAll children

end Plan

/-- The loops that are dropped from elements in a row, up to the first element whose attributes have
no meaning. -/
def droppedLoops (options : Options) : List Tag → List DroppedLoop
  | [] => []
  | tag :: rest =>
    match classify options tag with
    | .ok classified => classified.dropped.toList ++ droppedLoops options rest
    | .error _ => []

end LiveMarkup.Template
