import LiveMarkup.Live.Stats
import LiveMarkup.Proofs.Live.Redrawn

/-!
# The turn of a live tree

What a pass makes of a live tree, as a function of the live tree, the two
virtual trees and the number of handles given out before. `LiveTree.mount` is
the live tree of a fresh position, `LiveTree.meet` that of a position which
both virtual trees have. A `Turn` carries the calls and the counters besides.

No arena occurs here. That a pass in an arena does what its turn says is the
matter of `LiveMarkup.Proofs.Live.Pass`; everything else about passes is a
fact about these functions.

`LiveTree.Follows` is what a live tree has to be for a pass to be about it: it
has the tags of the old virtual tree, and at any node some of the last
children may be missing.

## Main results

* `ids_mount` — the handles of a fresh live tree are the next ones, in
  pre-order.
* `mem_ids_meet`, `nodup_ids_meet` — a position holds its old handle or a fresh
  one, and no handle twice.
* `shape_meet` — afterwards the live tree has the shape of the new virtual tree.
-/

namespace LiveMarkup.Live

open Arena

variable {H : Type}

/-! ## Counters -/

instance : Add Stats where
  add a b :=
    ⟨a.created + b.created, a.reused + b.reused, a.disposed + b.disposed,
      a.detached + b.detached, a.attached + b.attached⟩

namespace Stats

@[simp] theorem created_add (a b : Stats) : (a + b).created = a.created + b.created := rfl

theorem add_mk (a : Stats) (c r d e f : Nat) :
    a + ⟨c, r, d, e, f⟩ =
      ⟨a.created + c, a.reused + r, a.disposed + d, a.detached + e, a.attached + f⟩ := rfl

@[simp] theorem zero_add (a : Stats) : zero + a = a := by
  cases a
  simp only [zero, add_mk, Nat.zero_add]

@[simp] theorem add_zero (a : Stats) : a + zero = a := rfl

theorem add_assoc (a b c : Stats) : a + b + c = a + (b + c) := by
  cases a; cases b; cases c
  simp only [add_mk, Nat.add_assoc]

end Stats

/-! ## Turns -/

/-- What becomes of a position: the live tree that stands there afterwards,
the calls that led to it, and what they add to the counters. -/
structure Turn (H : Type) where
  tree : LiveTree H
  made : List (Call H)
  stats : Stats

/-- What becomes of positions in a row. -/
structure Turns (H : Type) where
  trees : List (LiveTree H)
  made : List (Call H)
  stats : Stats

namespace LiveTree

mutual

/-- The live tree of a fresh position, when `next` handles have been given out
before. -/
def mount (next : Nat) : VirtualTree H → LiveTree H
  | .node tag properties children =>
    node (.node next) tag (Properties.empty.overlay properties) properties.handlers
      (mountAll (next + 1) children)

/-- The live trees of fresh positions in a row. -/
def mountAll (next : Nat) : List (VirtualTree H) → List (LiveTree H)
  | [] => []
  | tree :: rest => mount next tree :: mountAll (next + tree.count) rest

end

mutual

/-- The calls that construct a fresh position. -/
def mountCalls (next : Nat) : VirtualTree H → List (Call H)
  | .node tag properties children =>
    .construct (.node next) tag ::
      (initialCalls (.node next) properties ++ fillCalls (.node next) (next + 1) children)

/-- The calls that construct the children of a fresh position and append them. -/
def fillCalls (parent : Handle) (next : Nat) : List (VirtualTree H) → List (Call H)
  | [] => []
  | tree :: rest =>
    mountCalls next tree ++ .addChild parent (.node next) ::
      fillCalls parent (next + tree.count) rest

end

/-- The calls that construct fresh positions in a row. -/
def rowCalls (next : Nat) : List (VirtualTree H) → List (Call H)
  | [] => []
  | tree :: rest => mountCalls next tree ++ rowCalls (next + tree.count) rest

/-- The length of the longest common beginning of two lists of children. -/
def keptLength : List Handle → List Handle → Nat
  | a :: as, b :: bs => if a = b then keptLength as bs + 1 else 0
  | _, _ => 0

/-- The calls that make a list of children out of another: what is not kept is
taken out from the back, and what is missing then is appended. -/
def editCalls (parent : Handle) (before after : List Handle) : List (Call H) :=
  let kept := keptLength before after
  (List.range' kept (before.length - kept)).reverse.map (.removeChildAt parent ·)
    ++ (after.drop kept).map (.addChild parent ·)

/-- What these calls add to the counters. -/
def editStats (before after : List Handle) : Stats :=
  let kept := keptLength before after
  ⟨0, 0, 0, before.length - kept, after.length - kept⟩

mutual

/-- What becomes of a position that both virtual trees have, when `next`
handles have been given out before. -/
def meet (next : Nat) : LiveTree H → VirtualTree H → VirtualTree H → Turn H
  | node id tag properties handlers lives, old, .node newTag fresh news =>
    if old.tag ≠ newTag then
      ⟨mount next (.node newTag fresh news),
        .dispose id :: mountCalls next (.node newTag fresh news),
        ⟨(VirtualTree.node newTag fresh news).count, 0, 1, 0, 0⟩⟩
    else
      let below := meetAll next lives old.children news
      ⟨node id tag (properties.overlay fresh) handlers below.trees,
        patchCalls id fresh ++ below.made
          ++ editCalls id (lives.map root) (below.trees.map root),
        ⟨0, 1, 0, 0, 0⟩ + below.stats + editStats (lives.map root) (below.trees.map root)⟩

/-- What becomes of the positions below a kept node. -/
def meetAll (next : Nat) :
    List (LiveTree H) → List (VirtualTree H) → List (VirtualTree H) → Turns H
  | lives, _, [] => ⟨[], lives.map (.dispose ·.root), ⟨0, 0, lives.length, 0, 0⟩⟩
  | live :: lives, old :: olds, new :: news =>
    let first := meet next live old new
    let rest := meetAll (next + first.stats.created) lives olds news
    ⟨first.tree :: rest.trees, first.made ++ rest.made, first.stats + rest.stats⟩
  | _, _, new :: news =>
    ⟨mountAll next (new :: news), rowCalls next (new :: news),
      ⟨VirtualTree.countAll (new :: news), 0, 0, 0, 0⟩⟩

end

mutual

/-- Whether a live tree has the tags of a virtual one, but for children that
are missing at the end of some lists. -/
def Follows : LiveTree H → VirtualTree H → Prop
  | node _ tag _ _ lives, .node tag' _ trees => tag = tag' ∧ FollowsAll lives trees

/-- Whether live trees in a row follow the first of the virtual ones. -/
def FollowsAll : List (LiveTree H) → List (VirtualTree H) → Prop
  | [], _ => True
  | _ :: _, [] => False
  | live :: lives, tree :: trees => live.Follows tree ∧ FollowsAll lives trees

end

theorem Follows.tag {live : LiveTree H} {tree : VirtualTree H} (h : live.Follows tree) :
    live.tag = tree.tag := by
  cases live
  cases tree
  exact h.1

theorem Follows.children {live : LiveTree H} {tree : VirtualTree H} (h : live.Follows tree) :
    FollowsAll live.children tree.children := by
  cases live
  cases tree
  exact h.2

theorem length_le_of_followsAll {lives : List (LiveTree H)} {trees : List (VirtualTree H)}
    (h : FollowsAll lives trees) : lives.length ≤ trees.length := by
  induction lives generalizing trees with
  | nil => exact Nat.zero_le _
  | cons live lives ih =>
      cases trees with
      | nil => exact h.elim
      | cons tree trees =>
          have hRest := ih h.2
          simp only [List.length_cons]
          omega

/-! ## Fresh positions -/

mutual

/-- The handles of a fresh live tree are the next ones, in pre-order. -/
theorem ids_mount : (tree : VirtualTree H) → (next : Nat) →
    (mount next tree).ids = (List.range' next tree.count).map .node
  | .node _ _ children, next => by
      rw [mount, ids_node, idsAll_mountAll children, VirtualTree.count, Nat.add_comm 1,
        List.range'_succ, List.map_cons]

theorem idsAll_mountAll : (trees : List (VirtualTree H)) → (next : Nat) →
    idsAll (mountAll next trees) = (List.range' next (VirtualTree.countAll trees)).map .node
  | [], _ => rfl
  | tree :: rest, next => by
      rw [mountAll, idsAll_cons, ids_mount tree, idsAll_mountAll rest, VirtualTree.countAll,
        ← List.map_append, List.range'_append_1]

end

mutual

theorem shape_mount : (tree : VirtualTree H) → (next : Nat) →
    (mount next tree).shape = tree.shape
  | .node _ _ children, next => by
      rw [mount, shape, VirtualTree.shape, shapeAll_mountAll children]

theorem shapeAll_mountAll : (trees : List (VirtualTree H)) → (next : Nat) →
    shapeAll (mountAll next trees) = VirtualTree.shapeAll trees
  | [], _ => rfl
  | tree :: rest, next => by
      rw [mountAll, shapeAll, VirtualTree.shapeAll, shape_mount tree, shapeAll_mountAll rest]

end

@[simp] theorem root_mount (tree : VirtualTree H) (next : Nat) :
    (mount next tree).root = .node next := by
  cases tree
  rfl

end LiveTree

/-- A handle that is given out when `next` have been given out before, among
the next `fresh` ones. -/
def Handle.IsFresh (next fresh : Nat) (id : Handle) : Prop :=
  ∃ number, id = .node number ∧ next ≤ number ∧ number < next + fresh

theorem Handle.IsFresh.mono {next fresh next' fresh' : Nat} {id : Handle}
    (h : id.IsFresh next fresh) (hNext : next' ≤ next)
    (hFresh : next + fresh ≤ next' + fresh') : id.IsFresh next' fresh' := by
  obtain ⟨number, rfl, hLe, hLt⟩ := h
  exact ⟨number, rfl, by omega, by omega⟩

namespace LiveTree

theorem mem_ids_mount {tree : VirtualTree H} {next : Nat} {id : Handle} :
    id ∈ (mount next tree).ids ↔ id.IsFresh next tree.count := by
  simp only [ids_mount, List.mem_map, List.mem_range'_1, Handle.IsFresh]
  exact ⟨fun ⟨k, hk, h⟩ => ⟨k, h.symm, hk⟩, fun ⟨k, h, hk⟩ => ⟨k, hk, h.symm⟩⟩

theorem mem_idsAll_mountAll {trees : List (VirtualTree H)} {next : Nat} {id : Handle} :
    id ∈ idsAll (mountAll next trees) ↔ id.IsFresh next (VirtualTree.countAll trees) := by
  simp only [idsAll_mountAll, List.mem_map, List.mem_range'_1, Handle.IsFresh]
  exact ⟨fun ⟨k, hk, h⟩ => ⟨k, h.symm, hk⟩, fun ⟨k, h, hk⟩ => ⟨k, hk, h.symm⟩⟩

/-- The handles of fresh positions lie in front of those of the positions that
are constructed after them. -/
theorem not_mem_mountAll_behind {tree : VirtualTree H} {rest : List (VirtualTree H)} {next : Nat}
    {id : Handle} (hMem : id ∈ (mount next tree).ids) :
    id ∉ idsAll (mountAll (next + tree.count) rest) := by
  intro hBehind
  obtain ⟨number, rfl, -, hLt⟩ := mem_ids_mount.mp hMem
  obtain ⟨number', hEq, hLe, -⟩ := mem_idsAll_mountAll.mp hBehind
  cases hEq
  omega

theorem nodup_map_node (next count : Nat) :
    ((List.range' next count).map Handle.node).Nodup :=
  List.Pairwise.map _ (fun _ _ hNe hEq => hNe (Handle.node.inj hEq)) List.nodup_range'

theorem nodup_ids_mount (tree : VirtualTree H) (next : Nat) : (mount next tree).ids.Nodup := by
  rw [ids_mount]
  exact nodup_map_node next tree.count

theorem nodup_idsAll_mountAll (trees : List (VirtualTree H)) (next : Nat) :
    (idsAll (mountAll next trees)).Nodup := by
  rw [idsAll_mountAll]
  exact nodup_map_node next (VirtualTree.countAll trees)

/-! ## Positions that both trees have -/

/-- A position with the old tag keeps its root. -/
theorem tree_meet_of_eq {next : Nat} {live : LiveTree H} {old : VirtualTree H} {tag : String}
    {fresh : Properties H} {news : List (VirtualTree H)} (h : old.tag = tag) :
    (meet next live old (.node tag fresh news)).tree =
      node live.root live.tag (live.properties.overlay fresh) live.handlers
        (meetAll next live.children old.children news).trees := by
  cases live
  rw [meet, if_neg (not_not_intro h)]
  rfl

theorem created_meet_of_eq {next : Nat} {live : LiveTree H} {old : VirtualTree H} {tag : String}
    {fresh : Properties H} {news : List (VirtualTree H)} (h : old.tag = tag) :
    (meet next live old (.node tag fresh news)).stats.created =
      (meetAll next live.children old.children news).stats.created := by
  cases live
  rw [meet, if_neg (not_not_intro h)]
  simp only [Stats.created_add, editStats, children]
  omega

/-- A position with another tag is a fresh one. -/
theorem meet_of_ne {next : Nat} {live : LiveTree H} {old new : VirtualTree H}
    (h : old.tag ≠ new.tag) :
    meet next live old new =
      ⟨mount next new, .dispose live.root :: mountCalls next new, ⟨new.count, 0, 1, 0, 0⟩⟩ := by
  cases live
  cases new
  exact if_pos h

/-- Where no live child is there, all positions are fresh. -/
theorem meetAll_nil (next : Nat) (olds news : List (VirtualTree H)) :
    meetAll next [] olds news =
      ⟨mountAll next news, rowCalls next news, ⟨VirtualTree.countAll news, 0, 0, 0, 0⟩⟩ := by
  cases news <;> rfl

/-- Where no old child is left, all that follow are fresh positions. -/
theorem meetAll_of_short {next : Nat} {lives : List (LiveTree H)} {olds : List (VirtualTree H)}
    (h : lives = [] ∨ olds = []) (new : VirtualTree H) (news : List (VirtualTree H)) :
    meetAll next lives olds (new :: news) =
      ⟨mountAll next (new :: news), rowCalls next (new :: news),
        ⟨VirtualTree.countAll (new :: news), 0, 0, 0, 0⟩⟩ := by
  rcases h with rfl | rfl
  · rfl
  · cases lives <;> rfl

mutual

/-- A position holds an old handle or a fresh one. -/
theorem mem_ids_meet : (new : VirtualTree H) → (next : Nat) → (live : LiveTree H) →
    (old : VirtualTree H) → (id : Handle) → id ∈ (meet next live old new).tree.ids →
    id ∈ live.ids ∨ id.IsFresh next (meet next live old new).stats.created
  | .node tag fresh news, next, live, old, id, hMem => by
      by_cases hTag : old.tag = tag
      · rw [tree_meet_of_eq hTag, ids_node, List.mem_cons] at hMem
        rw [created_meet_of_eq hTag]
        rcases hMem with rfl | hMem
        · exact .inl (root_mem_ids live)
        · refine (mem_idsAll_meetAll news next live.children old.children id hMem).imp ?_ (·)
          exact mem_ids_of_mem_children
      · rw [meet_of_ne hTag] at hMem ⊢
        exact .inr (mem_ids_mount.mp hMem)

theorem mem_idsAll_meetAll : (news : List (VirtualTree H)) → (next : Nat) →
    (lives : List (LiveTree H)) → (olds : List (VirtualTree H)) → (id : Handle) →
    id ∈ idsAll (meetAll next lives olds news).trees →
    id ∈ idsAll lives ∨ id.IsFresh next (meetAll next lives olds news).stats.created
  | [], next, lives, olds, id, hMem => by
      simp [meetAll] at hMem
  | new :: news, next, [], olds, id, hMem => by
      rw [meetAll_of_short (.inl rfl)] at hMem ⊢
      exact .inr (mem_idsAll_mountAll.mp hMem)
  | new :: news, next, live :: lives, [], id, hMem => by
      rw [meetAll_of_short (.inr rfl)] at hMem ⊢
      exact .inr (mem_idsAll_mountAll.mp hMem)
  | new :: news, next, live :: lives, old :: olds, id, hMem => by
      rw [meetAll, idsAll_cons, List.mem_append] at hMem
      rw [meetAll, idsAll_cons, List.mem_append, Stats.created_add]
      rcases hMem with hMem | hMem
      · refine (mem_ids_meet new next live old id hMem).imp .inl fun hFresh => ?_
        exact hFresh.mono (Nat.le_refl _) (by omega)
      · refine (mem_idsAll_meetAll news _ lives olds id hMem).imp .inr fun hFresh => ?_
        exact hFresh.mono (by omega) (by omega)

end

/-- A handle that has been given out is no fresh one. -/
def Old (next : Nat) (ids : List Handle) : Prop :=
  ∀ id ∈ ids, ∃ number, id = .node number ∧ number < next

theorem Old.not_isFresh {next next' fresh : Nat} {ids : List Handle} (h : Old next ids)
    (hNext : next ≤ next') {id : Handle} (hMem : id ∈ ids) : ¬ id.IsFresh next' fresh := by
  rintro ⟨number, rfl, hLe, -⟩
  obtain ⟨number', hEq, hLt⟩ := h _ hMem
  cases hEq
  omega

mutual

/-- No handle stands in two places. -/
theorem nodup_ids_meet : (new : VirtualTree H) → (next : Nat) → (live : LiveTree H) →
    (old : VirtualTree H) → live.ids.Nodup → Old next live.ids →
    (meet next live old new).tree.ids.Nodup
  | .node tag fresh news, next, live, old, hNodup, hOld => by
      by_cases hTag : old.tag = tag
      · rw [tree_meet_of_eq hTag, ids_node, List.nodup_cons]
        rw [ids_eq, List.nodup_cons] at hNodup
        have hOldBelow : Old next (idsAll live.children) :=
          fun id hMem => hOld id (mem_ids_of_mem_children hMem)
        refine ⟨fun hMem => ?_, nodup_idsAll_meetAll news next _ _ hNodup.2 hOldBelow⟩
        rcases mem_idsAll_meetAll news next _ _ _ hMem with hBelow | hFresh
        · exact hNodup.1 hBelow
        · exact hOld.not_isFresh (Nat.le_refl _) (root_mem_ids live) hFresh
      · rw [meet_of_ne hTag]
        exact nodup_ids_mount _ next

theorem nodup_idsAll_meetAll : (news : List (VirtualTree H)) → (next : Nat) →
    (lives : List (LiveTree H)) → (olds : List (VirtualTree H)) → (idsAll lives).Nodup →
    Old next (idsAll lives) → (idsAll (meetAll next lives olds news).trees).Nodup
  | [], _, _, _, _, _ => by simp [meetAll]
  | new :: news, next, [], olds, _, _ => by
      rw [meetAll_of_short (.inl rfl)]
      exact nodup_idsAll_mountAll _ next
  | new :: news, next, live :: lives, [], _, _ => by
      rw [meetAll_of_short (.inr rfl)]
      exact nodup_idsAll_mountAll _ next
  | new :: news, next, live :: lives, old :: olds, hNodup, hOld => by
      rw [idsAll_cons, List.nodup_append] at hNodup
      obtain ⟨hLive, hLives, hApart⟩ := hNodup
      have hOldLive : Old next live.ids := fun id hMem => hOld id (by simp [hMem])
      have hOldLives (next' : Nat) (hLe : next ≤ next') : Old next' (idsAll lives) := by
        intro id hMem
        obtain ⟨number, hId, hLt⟩ := hOld id (by simp [hMem])
        exact ⟨number, hId, by omega⟩
      rw [meetAll, idsAll_cons, List.nodup_append]
      refine ⟨nodup_ids_meet new next live old hLive hOldLive,
        nodup_idsAll_meetAll news _ lives olds hLives (hOldLives _ (by omega)), ?_⟩
      rintro id hFirst _ hRest rfl
      -- Old handles lie apart, and the fresh ones of the rest come behind those of the first.
      rcases mem_ids_meet new next live old id hFirst with hFirst | hFirst <;>
        rcases mem_idsAll_meetAll news _ lives olds id hRest with hRest | hRest
      · exact hApart id hFirst id hRest rfl
      · exact hOldLive.not_isFresh (by omega) hFirst hRest
      · exact (hOldLives next (Nat.le_refl _)).not_isFresh (Nat.le_refl _) hRest hFirst
      · obtain ⟨number, rfl, -, hLt⟩ := hFirst
        obtain ⟨number', hEq, hLe, -⟩ := hRest
        cases hEq
        omega

end

mutual

/-- Afterwards a live tree that followed the old virtual tree has the shape of
the new one. -/
theorem shape_meet : (new : VirtualTree H) → (next : Nat) → (live : LiveTree H) →
    (old : VirtualTree H) → live.Follows old → (meet next live old new).tree.shape = new.shape
  | .node tag fresh news, next, live, old, hFollows => by
      by_cases hTag : old.tag = tag
      · rw [tree_meet_of_eq hTag, shape, VirtualTree.shape,
          shapeAll_meetAll news next _ _ hFollows.children, hFollows.tag, hTag]
      · rw [meet_of_ne hTag, shape_mount]

theorem shapeAll_meetAll : (news : List (VirtualTree H)) → (next : Nat) →
    (lives : List (LiveTree H)) → (olds : List (VirtualTree H)) → FollowsAll lives olds →
    shapeAll (meetAll next lives olds news).trees = VirtualTree.shapeAll news
  | [], _, _, _, _ => by simp [meetAll, shapeAll, VirtualTree.shapeAll]
  | new :: news, next, [], olds, _ => by
      rw [meetAll_of_short (.inl rfl), shapeAll_mountAll]
  | new :: news, next, live :: lives, old :: olds, hFollows => by
      rw [FollowsAll] at hFollows
      rw [meetAll, shapeAll, VirtualTree.shapeAll, shape_meet new next live old hFollows.1,
        shapeAll_meetAll news _ lives olds hFollows.2]

end

mutual

/-- A live tree with the shape of a virtual one follows it. -/
theorem follows_of_shape : (live : LiveTree H) → (tree : VirtualTree H) →
    live.shape = tree.shape → live.Follows tree
  | node _ tag _ _ lives, .node tag' _ trees, hShape => by
      rw [shape, VirtualTree.shape, Shape.node.injEq] at hShape
      exact ⟨hShape.1, followsAll_of_shapeAll lives trees hShape.2⟩

theorem followsAll_of_shapeAll : (lives : List (LiveTree H)) → (trees : List (VirtualTree H)) →
    shapeAll lives = VirtualTree.shapeAll trees → FollowsAll lives trees
  | [], _, _ => trivial
  | _ :: _, [], hShape => by simp [shapeAll, VirtualTree.shapeAll] at hShape
  | live :: lives, tree :: trees, hShape => by
      rw [shapeAll, VirtualTree.shapeAll, List.cons.injEq] at hShape
      exact ⟨follows_of_shape live tree hShape.1, followsAll_of_shapeAll lives trees hShape.2⟩

end

end LiveTree

end LiveMarkup.Live
