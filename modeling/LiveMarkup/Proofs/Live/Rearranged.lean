import LiveMarkup.Proofs.Live.Remount
import LiveMarkup.Proofs.Live.Script

/-!
# Properties in another order

A node of a virtual tree holds its properties in the order in which they were set,
or in whatever order the container of them has. A pass takes them by name, and no
name occurs twice, so there is one order to take them in. Of the old tree it reads
no properties at all.

Two trees are `Rearranged` if they differ at most in the order of the properties of
their nodes. A pass makes the same requests for both. As a script is all that a
toolkit gets to see of a pass, this is said of the scripts and not of their logs:
it holds whatever the toolkit answers.

## Main results

* `sorted_eq_of_perm` — the order of the entries is not to be seen in the sorted
  ones.
* `create_of_rearranged`, `meet_of_rearranged` — for scripts and for passes.
* `reconcile_of_rearranged` — **a pass does not depend on the order of properties**.
-/

namespace LiveMarkup

variable {H : Type}

/-- **The order of the entries is not to be seen in the sorted ones.** -/
theorem Properties.sorted_eq_of_perm {p q : Properties H} (h : p.entries.Perm q.entries) :
    p.sorted = q.sorted := by
  refine eq_of_ascending p.sorted_strict q.sorted_strict fun entry => ?_
  rw [p.sorted_perm.mem_iff, h.mem_iff, q.sorted_perm.mem_iff]

namespace VirtualTree

mutual

/-- Two trees have the same tags and, in whatever order, the same properties at the
same positions. -/
def Rearranged : VirtualTree H → VirtualTree H → Prop
  | node tag properties children, node tag' properties' children' =>
    tag = tag' ∧ properties.entries.Perm properties'.entries ∧ RearrangedAll children children'

/-- As `Rearranged`, for trees in a row. -/
def RearrangedAll : List (VirtualTree H) → List (VirtualTree H) → Prop
  | [], [] => True
  | tree :: rest, tree' :: rest' => tree.Rearranged tree' ∧ RearrangedAll rest rest'
  | _, _ => False

end

theorem Rearranged.tag {tree other : VirtualTree H} (h : tree.Rearranged other) :
    tree.tag = other.tag := by
  cases tree
  cases other
  exact h.1

theorem Rearranged.children {tree other : VirtualTree H} (h : tree.Rearranged other) :
    RearrangedAll tree.children other.children := by
  cases tree
  cases other
  exact h.2.2

end VirtualTree

namespace Live

open VirtualTree (Rearranged RearrangedAll)

/-! ## Requests -/

namespace Script

theorem initialise_of_perm (id : Handle) {p q : Properties H} (h : p.entries.Perm q.entries) :
    initialise id p = initialise id q := by
  rw [initialise, initialise, Properties.sorted_eq_of_perm h]

theorem patch_of_perm (id : Handle) {p q : Properties H} (h : p.entries.Perm q.entries) :
    patch id p = patch id q := by
  rw [patch, patch, Properties.sorted_eq_of_perm h]

mutual

/-- The script that constructs a tree is that of the tree rearranged. -/
theorem create_of_rearranged : (tree other : VirtualTree H) → tree.Rearranged other →
    create tree = create other
  | .node tag properties children, .node tag' properties' children', h => by
      obtain ⟨rfl, hProperties, hChildren⟩ := h
      have hBelow (id : Handle) : createAll id children = createAll id children' :=
        createAll_of_rearranged id children children' hChildren
      rw [create, create]
      simp only [initialise_of_perm _ hProperties, hBelow]

theorem createAll_of_rearranged (parent : Handle) : (trees others : List (VirtualTree H)) →
    RearrangedAll trees others → createAll parent trees = createAll parent others
  | [], [], _ => rfl
  | tree :: rest, tree' :: rest', h => by
      rw [createAll, createAll, create_of_rearranged tree tree' h.1,
        createAll_of_rearranged parent rest rest' h.2]

end

/-- Positions are dropped whatever stood there. -/
theorem dropRest_of_rearranged (parent : Handle) : (olds others : List (VirtualTree H)) →
    RearrangedAll olds others → (index : Nat) → (edits : Edits) →
    dropRest parent index edits olds = dropRest parent index edits others
  | [], [], _, _, _ => rfl
  | _ :: rest, _ :: rest', h, index, edits => by
      rw [dropRest, dropRest]
      simp only [dropRest_of_rearranged parent rest rest' h.2]

theorem createRest_of_rearranged : (news others : List (VirtualTree H)) →
    RearrangedAll news others → (index : Nat) → (edits : Edits) →
    createRest index edits news = createRest index edits others
  | [], [], _, _, _ => rfl
  | tree :: rest, tree' :: rest', h, index, edits => by
      rw [createRest, createRest, create_of_rearranged tree tree' h.1]
      simp only [createRest_of_rearranged rest rest' h.2]

mutual

/-- **The script of a position does not depend on the order of properties.** -/
theorem meet_of_rearranged : (new new' : VirtualTree H) → new.Rearranged new' →
    (old old' : VirtualTree H) → old.Rearranged old' → (live : Option Handle) →
    meet live old new = meet live old' new'
  | .node tag properties news, .node tag' properties' news', hNew, old, old', hOld, live => by
      have hCreate := create_of_rearranged _ _ hNew
      obtain ⟨rfl, hProperties, hNews⟩ := hNew
      cases live with
      | none => rw [meet, meet, hCreate]
      | some id =>
          -- of the old tree the script reads the tag and the children
          rw [meet, meet, hOld.tag, hCreate, patch_of_perm id hProperties,
            meetAll_of_rearranged news news' hNews _ _ hOld.children]

theorem meetAll_of_rearranged : (news news' : List (VirtualTree H)) → RearrangedAll news news' →
    (olds olds' : List (VirtualTree H)) → RearrangedAll olds olds' → (parent : Handle) →
    (index : Nat) → (edits : Edits) →
    meetAll parent index edits olds news = meetAll parent index edits olds' news'
  | [], [], _, olds, olds', hOlds, parent, index, edits => by
      rw [meetAll, meetAll, dropRest_of_rearranged parent olds olds' hOlds]
  | new :: news, new' :: news', hNews, [], [], _, parent, index, edits => by
      rw [meetAll, meetAll, createRest_of_rearranged (new :: news) (new' :: news') hNews]
  | new :: news, new' :: news', hNews, old :: olds, old' :: olds', hOlds, parent, index, edits => by
      rw [meetAll, meetAll]
      simp only [meet_of_rearranged new new' hNews.1 old old' hOlds.1,
        meetAll_of_rearranged news news' hNews.2 olds olds' hOlds.2]

end

theorem reconcile_of_rel (live : Option Handle) {old old' new new' : Option (VirtualTree H)}
    (hOld : Option.Rel Rearranged old old') (hNew : Option.Rel Rearranged new new') :
    reconcile live old new = reconcile live old' new' := by
  cases hNew with
  | none => cases hOld <;> rfl
  | some hNew =>
      cases hOld with
      | none => rw [reconcile, reconcile, create_of_rearranged _ _ hNew]
      | some hOld => rw [reconcile, reconcile, meet_of_rearranged _ _ hNew _ _ hOld]

end Script

/-! ## Passes -/

namespace Pass

theorem begun_of_perm (pass : Pass H) (tag : String) {p q : Properties H}
    (h : p.entries.Perm q.entries) : pass.begun tag p = pass.begun tag q := by
  rw [begun, begun, initialise, initialise, Properties.sorted_eq_of_perm h]

theorem patched_of_perm (pass : Pass H) (id : Handle) {p q : Properties H}
    (h : p.entries.Perm q.entries) : pass.patched id p = pass.patched id q := by
  rw [patched, patched, patch, patch, Properties.sorted_eq_of_perm h]

mutual

/-- Constructing a tree is constructing the tree rearranged. -/
theorem create_of_rearranged : (tree other : VirtualTree H) → tree.Rearranged other →
    (pass : Pass H) → create pass tree = create pass other
  | .node tag properties children, .node tag' properties' children', h, pass => by
      obtain ⟨rfl, hProperties, hChildren⟩ := h
      rw [create_node, create_node, begun_of_perm pass tag hProperties,
        createAll_of_rearranged children children' hChildren]

theorem createAll_of_rearranged : (trees others : List (VirtualTree H)) →
    RearrangedAll trees others → (pass : Pass H) → (parent : Handle) →
    createAll pass parent trees = createAll pass parent others
  | [], [], _, _, _ => rfl
  | tree :: rest, tree' :: rest', h, pass, parent => by
      rw [createAll_cons, createAll_cons, filled, filled, create_of_rearranged tree tree' h.1,
        createAll_of_rearranged rest rest' h.2]

end

theorem dropRest_of_rearranged : (olds others : List (VirtualTree H)) →
    RearrangedAll olds others → (pass : Pass H) → (parent : Handle) → (index : Nat) →
    (edits : Edits) → dropRest pass parent index edits olds = dropRest pass parent index edits others
  | [], [], _, _, _, _, _ => rfl
  | _ :: rest, _ :: rest', h, pass, parent, index, edits => by
      rw [dropRest, dropRest, dropRest_of_rearranged rest rest' h.2]

theorem createRest_of_rearranged : (news others : List (VirtualTree H)) →
    RearrangedAll news others → (pass : Pass H) → (index : Nat) → (edits : Edits) →
    createRest pass index edits news = createRest pass index edits others
  | [], [], _, _, _, _ => rfl
  | tree :: rest, tree' :: rest', h, pass, index, edits => by
      rw [createRest, createRest, create_of_rearranged tree tree' h.1]
      exact createRest_of_rearranged rest rest' h.2 _ _ _

mutual

/-- **A position is brought in line whatever the order of properties.** -/
theorem meet_of_rearranged : (new new' : VirtualTree H) → new.Rearranged new' →
    (old old' : VirtualTree H) → old.Rearranged old' → (pass : Pass H) → (live : Option Handle) →
    meet pass live old new = meet pass live old' new'
  | .node tag properties news, .node tag' properties' news', hNew, old, old', hOld, pass, live => by
      have hCreate := create_of_rearranged _ _ hNew
      obtain ⟨rfl, hProperties, hNews⟩ := hNew
      cases live with
      | none => rw [meet_none, meet_none, hCreate]
      | some id =>
          by_cases hTag : old.tag = tag
          · have hTag' : old'.tag = tag := hOld.tag ▸ hTag
            rw [meet_of_eq pass id hTag, meet_of_eq pass id hTag', patched_of_perm pass id hProperties,
              meetAll_of_rearranged news news' hNews _ _ hOld.children]
          · have hTag' : old'.tag ≠ tag := hOld.tag ▸ hTag
            rw [meet, meet, if_pos hTag, if_pos hTag', hOld.tag, hCreate]

theorem meetAll_of_rearranged : (news news' : List (VirtualTree H)) → RearrangedAll news news' →
    (olds olds' : List (VirtualTree H)) → RearrangedAll olds olds' → (pass : Pass H) →
    (parent : Handle) → (index : Nat) → (edits : Edits) →
    meetAll pass parent index edits olds news = meetAll pass parent index edits olds' news'
  | [], [], _, olds, olds', hOlds, pass, parent, index, edits => by
      rw [meetAll, meetAll, dropRest_of_rearranged olds olds' hOlds]
  | new :: news, new' :: news', hNews, [], [], _, pass, parent, index, edits => by
      rw [meetAll, meetAll, createRest_of_rearranged (new :: news) (new' :: news') hNews]
  | new :: news, new' :: news', hNews, old :: olds, old' :: olds', hOlds, pass, parent, index,
      edits => by
      rw [meetAll, meetAll, meet_of_rearranged new new' hNews.1 old old' hOlds.1]
      exact meetAll_of_rearranged news news' hNews.2 olds olds' hOlds.2 _ _ _ _

end

theorem reconcile_of_rel (pass : Pass H) (live : Option Handle)
    {old old' new new' : Option (VirtualTree H)} (hOld : Option.Rel Rearranged old old')
    (hNew : Option.Rel Rearranged new new') :
    pass.reconcile live old new = pass.reconcile live old' new' := by
  cases hNew with
  | none => cases hOld <;> rfl
  | some hNew =>
      cases hOld with
      | none => rw [reconcile, reconcile, create_of_rearranged _ _ hNew]
      | some hOld => rw [reconcile, reconcile, meet_of_rearranged _ _ hNew _ _ hOld]

end Pass

/-- **A pass does not depend on the order of properties.** With the properties of any
nodes of the two trees in another order, it makes the same requests, whatever the
toolkit answers; and it has the same result, the same counters and remarks, and
leaves the same arena with the same calls on record. -/
theorem reconcile_of_rearranged (arena : Arena H) (live : Option Handle)
    {old old' new new' : Option (VirtualTree H)} (hOld : Option.Rel Rearranged old old')
    (hNew : Option.Rel Rearranged new new') :
    Script.reconcile live old new = Script.reconcile live old' new' ∧
      (Script.reconcile live old new).log arena = (Script.reconcile live old' new').log arena ∧
      (Pass.start arena).reconcile live old new = (Pass.start arena).reconcile live old' new' := by
  have hScript := Script.reconcile_of_rel live hOld hNew
  exact ⟨hScript, congrArg (·.log arena) hScript, Pass.reconcile_of_rel _ live hOld hNew⟩

/-- A kept row gets a text and a cell. The old row, the new one and the cell have their
properties in two orders, the handler among them; the calls are by name for both. -/
theorem reconcile_of_rearranged_row :
    let old : VirtualTree Nat := .node "row" (.ofList [("b", .int 1), ("a", .bool true)]) []
    let old' : VirtualTree Nat := .node "row" (.ofList [("a", .bool true), ("b", .int 1)]) []
    let new : VirtualTree Nat := .node "row" (.ofList [("t", .text "x"), ("click", .handler 7)])
      [.node "cell" (.ofList [("u", .int 2), ("v", .handler 8)]) []]
    let new' : VirtualTree Nat := .node "row" (.ofList [("click", .handler 7), ("t", .text "x")])
      [.node "cell" (.ofList [("v", .handler 8), ("u", .int 2)]) []]
    let arena : Arena Nat := ⟨[some ⟨"row", old.properties, [], []⟩], []⟩
    let calls : List (Call Nat) :=
      [.setProperty (.node 0) "t" (.text "x"), .construct (.node 1) "cell",
        .setProperty (.node 1) "u" (.int 2), .attachHandler (.node 1) "v",
        .addChild (.node 0) (.node 1)]
    Option.Rel Rearranged (some old) (some old') ∧ Option.Rel Rearranged (some new) (some new') ∧
      old.properties.entries ≠ old'.properties.entries ∧
      new.properties.entries ≠ new'.properties.entries ∧
      ((Pass.start arena).reconcile (some (.node 0)) (some old) (some new)).2.arena.calls = calls ∧
      ((Pass.start arena).reconcile (some (.node 0)) (some old') (some new')).2.arena.calls =
        calls := by
  intro old old' new new' arena calls
  have hOld : Option.Rel Rearranged (some old) (some old') :=
    .some ⟨rfl, .swap _ _ _, trivial⟩
  have hNew : Option.Rel Rearranged (some new) (some new') :=
    .some ⟨rfl, .swap _ _ _, ⟨rfl, .swap _ _ _, trivial⟩, trivial⟩
  obtain ⟨-, -, hPass⟩ := reconcile_of_rearranged arena (some (.node 0)) hOld hNew
  have hCalls : ((Pass.start arena).reconcile (some (.node 0)) (some old) (some new)).2.arena.calls =
      calls := rfl
  refine ⟨hOld, hNew, by decide, by decide, hCalls, ?_⟩
  rw [← hPass]
  exact hCalls

end Live

end LiveMarkup
