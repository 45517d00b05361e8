import LiveMarkup.Proofs.Live.Rebuild

/-!
# Positions

A position in a tree is the list of the child indices that lead to it. Virtual
trees, live trees and arenas all have positions, and this module follows one of
them through a pass.

What becomes of a position depends on `VirtualTree.tagsTo`, the tags on the way
to it. Where the old and the new virtual tree agree about these, the live node
is kept and its properties are laid over; where they do not, the live subtree
is a fresh one.

## Main results

* `at?_meet_of_eq` — a position with the old tags keeps its node.
* `at?_meet_of_ne` — a position with other tags is mounted.
* `at?_of_holds` — an arena has the node of a live tree at its position.
-/

namespace LiveMarkup

variable {H : Type}

namespace VirtualTree

/-- The subtree at a position. -/
def at? : List Nat → VirtualTree H → Option (VirtualTree H)
  | [], tree => some tree
  | index :: path, tree => tree.children[index]?.bind (at? path)

/-- The tags on the way to a position, those of the root and of the position
included. -/
def tagsTo : List Nat → VirtualTree H → Option (List String)
  | [], tree => some [tree.tag]
  | index :: path, tree => (tree.children[index]?.bind (tagsTo path)).map (tree.tag :: ·)

/-- There are tags on the way to the positions of a tree and to no others. -/
theorem isSome_tagsTo (path : List Nat) (tree : VirtualTree H) :
    (tree.tagsTo path).isSome = (tree.at? path).isSome := by
  induction path generalizing tree with
  | nil => rfl
  | cons index path ih =>
      rw [tagsTo, at?, Option.isSome_map]
      cases tree.children[index]? with
      | none => rfl
      | some child => exact ih child

theorem count_pos (tree : VirtualTree H) : 0 < tree.count := by
  cases tree
  rw [count]
  omega

theorem shapeAll_eq_map (trees : List (VirtualTree H)) : shapeAll trees = trees.map shape := by
  induction trees with
  | nil => rfl
  | cons tree rest ih => rw [shapeAll, ih, List.map_cons]

theorem shape_eq (tree : VirtualTree H) : tree.shape = .node tree.tag (tree.children.map shape) := by
  cases tree
  rw [shape, shapeAll_eq_map, tag, children]

end VirtualTree

namespace Live

namespace LiveTree

/-- The live subtree at a position. -/
def at? : List Nat → LiveTree H → Option (LiveTree H)
  | [], live => some live
  | index :: path, live => live.children[index]?.bind (at? path)

theorem shapeAll_eq_map (lives : List (LiveTree H)) : shapeAll lives = lives.map shape := by
  induction lives with
  | nil => rfl
  | cons live rest ih => rw [shapeAll, ih, List.map_cons]

theorem shape_eq (live : LiveTree H) : live.shape = .node live.tag (live.children.map shape) := by
  cases live
  rw [shape, shapeAll_eq_map, tag, children]

/-- A live tree with the shape of a virtual one has live trees where that has
children, with the shapes of these. -/
theorem exists_child_of_shape {live : LiveTree H} {tree child : VirtualTree H} {index : Nat}
    (hShape : live.shape = tree.shape) (hChild : tree.children[index]? = some child) :
    ∃ below, live.children[index]? = some below ∧ below.shape = child.shape := by
  rw [shape_eq, VirtualTree.shape_eq, Shape.node.injEq] at hShape
  have hMap := congrArg (·[index]?) hShape.2
  simp only [List.getElem?_map, hChild, Option.map_some, Option.map_eq_some_iff] at hMap
  exact hMap

theorem no_child_of_shape {live : LiveTree H} {tree : VirtualTree H} {index : Nat}
    (hShape : live.shape = tree.shape) (hChild : tree.children[index]? = none) :
    live.children[index]? = none := by
  rw [shape_eq, VirtualTree.shape_eq, Shape.node.injEq] at hShape
  have hMap := congrArg (·[index]?) hShape.2
  simp only [List.getElem?_map, hChild, Option.map_none, Option.map_eq_none_iff] at hMap
  exact hMap

/-- A live tree with the shape of a virtual one has a live tree at each position of
that, with the shape of what is there. -/
theorem exists_found_of_shape (path : List Nat) {live : LiveTree H} {tree here : VirtualTree H}
    (hShape : live.shape = tree.shape) (hHere : tree.at? path = some here) :
    ∃ found, live.at? path = some found ∧ found.shape = here.shape := by
  induction path generalizing live tree with
  | nil =>
      cases hHere
      exact ⟨live, rfl, hShape⟩
  | cons index path ih =>
      rw [VirtualTree.at?, Option.bind_eq_some_iff] at hHere
      obtain ⟨child, hChild, hBelow⟩ := hHere
      obtain ⟨below, hLive, hShapeBelow⟩ := exists_child_of_shape hShape hChild
      obtain ⟨found, hFound, hShapeFound⟩ := ih hShapeBelow hBelow
      exact ⟨found, by rw [at?, hLive, Option.bind_some, hFound], hShapeFound⟩

/-- The handles at the positions of a live tree are its handles. -/
theorem root_mem_ids_of_at? (path : List Nat) (live : LiveTree H) {found : LiveTree H}
    (hFound : live.at? path = some found) : found.root ∈ live.ids := by
  induction path generalizing live with
  | nil =>
      cases hFound
      exact root_mem_ids _
  | cons index path ih =>
      rw [at?, Option.bind_eq_some_iff] at hFound
      obtain ⟨child, hChild, hBelow⟩ := hFound
      exact mem_ids_of_mem_children
        ((ids_sublist (List.mem_of_getElem? hChild)).subset (ih child hBelow))

/-! ## Children after a pass -/

theorem children_mount (tree : VirtualTree H) (next : Nat) :
    (mount next tree).children = mountAll (next + 1) tree.children := by
  cases tree
  rfl

/-- A fresh live tree below the root is fresh, in its share of the handles. -/
theorem getElem?_mountAll (index : Nat) (trees : List (VirtualTree H)) (next : Nat)
    {tree : VirtualTree H} (hTree : trees[index]? = some tree) :
    ∃ start, next ≤ start ∧ start + tree.count ≤ next + VirtualTree.countAll trees ∧
      (mountAll next trees)[index]? = some (mount start tree) := by
  induction index generalizing trees next with
  | zero =>
      cases trees with
      | nil => cases hTree
      | cons first rest =>
          rw [List.getElem?_cons_zero, Option.some.injEq] at hTree
          subst hTree
          refine ⟨next, Nat.le_refl _, ?_, rfl⟩
          rw [VirtualTree.countAll]
          omega
  | succ index ih =>
      cases trees with
      | nil => cases hTree
      | cons first rest =>
          obtain ⟨start, hLe, hFits, hHere⟩ := ih rest (next + first.count) hTree
          refine ⟨start, by omega, ?_, hHere⟩
          rw [VirtualTree.countAll]
          omega

/-- A position that both lists have meets in its share of the handles. -/
theorem getElem?_meetAll (index : Nat) (news : List (VirtualTree H)) (next : Nat)
    (lives : List (LiveTree H)) (olds : List (VirtualTree H)) {live : LiveTree H}
    {old new : VirtualTree H} (hLive : lives[index]? = some live) (hOld : olds[index]? = some old)
    (hNew : news[index]? = some new) :
    ∃ start, next ≤ start ∧
      start + (meet start live old new).stats.created ≤
        next + (meetAll next lives olds news).stats.created ∧
      (meetAll next lives olds news).trees[index]? = some (meet start live old new).tree := by
  induction index generalizing news next lives olds with
  | zero =>
      cases lives with
      | nil => cases hLive
      | cons firstLive lives =>
          cases olds with
          | nil => cases hOld
          | cons firstOld olds =>
              cases news with
              | nil => cases hNew
              | cons firstNew news =>
                  cases hLive
                  cases hOld
                  cases hNew
                  refine ⟨next, Nat.le_refl _, ?_, by rw [meetAll]; rfl⟩
                  rw [meetAll, Stats.created_add]
                  omega
  | succ index ih =>
      cases lives with
      | nil => cases hLive
      | cons firstLive lives =>
          cases olds with
          | nil => cases hOld
          | cons firstOld olds =>
              cases news with
              | nil => cases hNew
              | cons firstNew news =>
                  obtain ⟨start, hLe, hFits, hHere⟩ := ih news
                    (next + (meet next firstLive firstOld firstNew).stats.created) lives olds
                    hLive hOld hNew
                  refine ⟨start, by omega, ?_, by rw [meetAll]; exact hHere⟩
                  rw [meetAll, Stats.created_add]
                  omega

/-- A position that the old lists do not have is a fresh one. -/
theorem getElem?_meetAll_of_none (index : Nat) (news : List (VirtualTree H)) (next : Nat)
    (lives : List (LiveTree H)) (olds : List (VirtualTree H)) {new : VirtualTree H}
    (hOld : lives[index]? = none ∨ olds[index]? = none) (hNew : news[index]? = some new) :
    ∃ start, next ≤ start ∧
      start + new.count ≤ next + (meetAll next lives olds news).stats.created ∧
      (meetAll next lives olds news).trees[index]? = some (mount start new) := by
  induction index generalizing news next lives olds with
  | zero =>
      cases news with
      | nil => cases hNew
      | cons firstNew news =>
          have hShort : lives = [] ∨ olds = [] := by simpa using hOld
          rw [meetAll_of_short hShort]
          exact getElem?_mountAll 0 _ next hNew
  | succ index ih =>
      cases news with
      | nil => cases hNew
      | cons firstNew news =>
          by_cases hShort : lives = [] ∨ olds = []
          · rw [meetAll_of_short hShort]
            exact getElem?_mountAll (index + 1) _ next hNew
          · rw [not_or] at hShort
            obtain ⟨firstLive, lives, rfl⟩ := List.exists_cons_of_ne_nil hShort.1
            obtain ⟨firstOld, olds, rfl⟩ := List.exists_cons_of_ne_nil hShort.2
            obtain ⟨start, hLe, hFits, hHere⟩ := ih news
              (next + (meet next firstLive firstOld firstNew).stats.created) lives olds hOld hNew
            refine ⟨start, by omega, ?_, by rw [meetAll]; exact hHere⟩
            rw [meetAll, Stats.created_add]
            omega

/-! ## A position through a pass -/

/-- A fresh live tree has fresh subtrees at all positions. -/
theorem at?_mount (path : List Nat) (tree : VirtualTree H) (next : Nat) {here : VirtualTree H}
    (hHere : tree.at? path = some here) :
    ∃ start, next ≤ start ∧ start + here.count ≤ next + tree.count ∧
      (mount next tree).at? path = some (mount start here) := by
  induction path generalizing tree next with
  | nil =>
      cases hHere
      exact ⟨next, Nat.le_refl _, Nat.le_refl _, rfl⟩
  | cons index path ih =>
      rw [VirtualTree.at?, Option.bind_eq_some_iff] at hHere
      obtain ⟨child, hChild, hBelow⟩ := hHere
      obtain ⟨start, hLe, hFits, hMount⟩ := getElem?_mountAll index _ (next + 1) hChild
      obtain ⟨start', hLe', hFits', hAt⟩ := ih child start hBelow
      have hCount : tree.count = 1 + VirtualTree.countAll tree.children := by
        cases tree
        rfl
      refine ⟨start', by omega, by omega, ?_⟩
      rw [at?, children_mount, hMount, Option.bind_some, hAt]

/-- **A position with the old tags keeps its node**, if it has one, and the
properties are laid over those that the node has. -/
theorem at?_meet_of_eq (path : List Nat) (new : VirtualTree H) (next : Nat) (live : LiveTree H)
    (old : VirtualTree H) {here : VirtualTree H} {before : LiveTree H}
    (hHere : new.at? path = some here) (hBefore : live.at? path = some before)
    (hTags : old.tagsTo path = new.tagsTo path) :
    ∃ after, (meet next live old new).tree.at? path = some after ∧ after.root = before.root ∧
      after.properties = before.properties.overlay here.properties ∧
      after.handlers = before.handlers := by
  induction path generalizing new next live old with
  | nil =>
      rw [VirtualTree.at?, Option.some.injEq] at hHere
      rw [at?, Option.some.injEq] at hBefore
      subst hHere hBefore
      obtain ⟨tag, fresh, news⟩ := new
      have hTag : old.tag = tag := by simpa [VirtualTree.tagsTo, VirtualTree.tag] using hTags
      refine ⟨_, rfl, ?_⟩
      rw [tree_meet_of_eq hTag]
      exact ⟨rfl, rfl, rfl⟩
  | cons index path ih =>
      obtain ⟨tag, fresh, news⟩ := new
      rw [VirtualTree.at?, Option.bind_eq_some_iff] at hHere
      obtain ⟨child, hChild, hBelow⟩ := hHere
      rw [at?, Option.bind_eq_some_iff] at hBefore
      obtain ⟨below, hLive, hBefore⟩ := hBefore
      have hSome : (child.tagsTo path).isSome = true := by
        rw [VirtualTree.isSome_tagsTo, hBelow]
        rfl
      obtain ⟨tags, hTagsNew⟩ := Option.isSome_iff_exists.mp hSome
      rw [VirtualTree.tagsTo, VirtualTree.tagsTo, hChild, Option.bind_some, hTagsNew,
        Option.map_some, Option.map_eq_some_iff] at hTags
      obtain ⟨tagsOld, hOld, hCons⟩ := hTags
      rw [List.cons.injEq] at hCons
      have hTag : old.tag = tag := hCons.1
      rw [Option.bind_eq_some_iff] at hOld
      obtain ⟨oldChild, hOldChild, hTagsOld⟩ := hOld
      obtain ⟨start, -, -, hMeet⟩ := getElem?_meetAll index news next _ _ hLive hOldChild hChild
      obtain ⟨after, hAfter, hKept⟩ := ih child start below oldChild hBelow hBefore
        (by rw [hTagsOld, hTagsNew, hCons.2])
      refine ⟨after, ?_, hKept⟩
      rw [tree_meet_of_eq hTag, at?, children, hMeet, Option.bind_some, hAfter]

/-- **A position with other tags is mounted**, and so is one that has no node. -/
theorem at?_meet_of_ne (path : List Nat) (new : VirtualTree H) (next : Nat) (live : LiveTree H)
    (old : VirtualTree H) {here : VirtualTree H} (hHere : new.at? path = some here)
    (hOther : live.at? path = none ∨ old.tagsTo path ≠ new.tagsTo path) :
    ∃ start, next ≤ start ∧
      start + here.count ≤ next + (meet next live old new).stats.created ∧
      (meet next live old new).tree.at? path = some (mount start here) := by
  induction path generalizing new next live old with
  | nil =>
      rw [VirtualTree.at?, Option.some.injEq] at hHere
      subst hHere
      have hTag : old.tag ≠ new.tag := by simpa [at?, VirtualTree.tagsTo] using hOther
      rw [meet_of_ne hTag]
      exact ⟨next, Nat.le_refl _, Nat.le_refl _, rfl⟩
  | cons index path ih =>
      by_cases hTag : old.tag = new.tag
      · obtain ⟨tag, fresh, news⟩ := new
        rw [VirtualTree.at?, Option.bind_eq_some_iff] at hHere
        obtain ⟨child, hChild, hBelow⟩ := hHere
        have hTag' : old.tag = tag := hTag
        rw [created_meet_of_eq hTag', tree_meet_of_eq hTag', at?, children]
        by_cases hGone : live.children[index]? = none ∨ old.children[index]? = none
        · obtain ⟨start, hLe, hFits, hMount⟩ :=
            getElem?_meetAll_of_none index news next _ _ hGone hChild
          obtain ⟨start', hLe', hFits', hAt⟩ := at?_mount path child start hBelow
          refine ⟨start', by omega, by omega, ?_⟩
          rw [hMount, Option.bind_some, hAt]
        · rw [not_or] at hGone
          obtain ⟨below, hLive⟩ := Option.ne_none_iff_exists'.mp hGone.1
          obtain ⟨oldChild, hOldChild⟩ := Option.ne_none_iff_exists'.mp hGone.2
          obtain ⟨start, hLe, hFits, hMeet⟩ :=
            getElem?_meetAll index news next _ _ hLive hOldChild hChild
          have hOtherBelow : below.at? path = none ∨ oldChild.tagsTo path ≠ child.tagsTo path := by
            refine hOther.imp (fun hNone => ?_) fun hNe hEq => hNe ?_
            · rwa [at?, hLive, Option.bind_some] at hNone
            · rw [VirtualTree.tagsTo, VirtualTree.tagsTo, hOldChild, hChild, Option.bind_some,
                Option.bind_some, hEq, hTag]
          obtain ⟨start', hLe', hFits', hAt⟩ := ih child start below oldChild hBelow hOtherBelow
          refine ⟨start', by omega, by omega, ?_⟩
          rw [hMeet, Option.bind_some, hAt]
      · rw [meet_of_ne hTag]
        exact at?_mount _ new next hHere

/-- The root of a live tree, as an arena holds it. -/
def held (live : LiveTree H) : Node H :=
  ⟨live.tag, live.properties, live.handlers, live.children.map root⟩

end LiveTree

/-! ## Positions in an arena -/

open LiveTree (root nodesAll held)

/-- The handle at a position below a handle. -/
def Arena.at? (arena : Arena H) : List Nat → Handle → Option Handle
  | [], id => some id
  | index :: path, id => (arena.childAt? id index).bind (arena.at? path)

theorem Arena.holds_iff {arena : Arena H} {live : LiveTree H} :
    arena.Holds live.nodes ↔
      arena.node? live.root = some live.held ∧ arena.Holds (nodesAll live.children) := by
  cases live
  exact Slots.holds_cons

theorem Arena.holds_child {arena : Arena H} {lives : List (LiveTree H)} {index : Nat}
    {live : LiveTree H} (hHolds : arena.Holds (nodesAll lives)) (hLive : lives[index]? = some live) :
    arena.Holds live.nodes := by
  induction lives generalizing index with
  | nil => cases hLive
  | cons first rest ih =>
      rw [nodesAll, Arena.Holds, Slots.holds_append] at hHolds
      cases index with
      | zero =>
          cases hLive
          exact hHolds.1
      | succ index => exact ih hHolds.2 hLive

/-- **An arena has the node of a live tree at its position.** -/
theorem Arena.at?_of_holds {arena : Arena H} (path : List Nat) {live here : LiveTree H}
    (hHolds : arena.Holds live.nodes) (hHere : live.at? path = some here) :
    arena.at? path live.root = some here.root ∧ arena.node? here.root = some here.held := by
  induction path generalizing live with
  | nil =>
      cases hHere
      exact ⟨rfl, (holds_iff.mp hHolds).1⟩
  | cons index path ih =>
      rw [LiveTree.at?, Option.bind_eq_some_iff] at hHere
      obtain ⟨child, hChild, hBelow⟩ := hHere
      obtain ⟨hNode, hChildren⟩ := holds_iff.mp hHolds
      obtain ⟨hAt, hFound⟩ := ih (holds_child hChildren hChild) hBelow
      refine ⟨?_, hFound⟩
      have hChildAt : arena.childAt? live.root index = some child.root := by
        rw [Arena.childAt?, Arena.children, hNode]
        simp [held, hChild]
      rw [Arena.at?, hChildAt, Option.bind_some, hAt]

end Live

end LiveMarkup
