import LiveMarkup.Proofs.Live.Preorder
import Mathlib.Algebra.BigOperators.Group.List.Basic
import Mathlib.Tactic.Abel

/-!
# What a pass counts

The counters of a pass, as a function of the two trees alone. Every shared position
adds to them what `Stats.kept` says, every dropped one is one live subtree disposed
of, and what is created is counted besides.

## Main results

* `stats_meet_eq` — the counters of a turn are those of the shared positions and
  the dropped ones.
* `created_add_reused_meet` — every node of the new tree is created or kept.
* `shape_eq_of_still` — a pass that creates and disposes of nothing was about two
  trees of one shape.
* `Redrawn.size` — an arena grows by what is shown and shrinks by what is gone.
* `accounted_reconcile` — **the counters of a pass count positions**.
-/

namespace LiveMarkup.Live

open VirtualTree (behind positionsAll shared dropped childrenAt positions_eq)
open LiveTree (root nodesAll idsAll meet meetAll mount Old)

variable {H : Type}

/-! ## Sums of counters -/

namespace Stats

instance : Zero Stats := ⟨zero⟩

instance : AddCommMonoid Stats where
  add_assoc := add_assoc
  zero_add := zero_add
  add_zero := add_zero
  add_comm := by
    rintro ⟨⟩ ⟨⟩
    simp only [add_mk, Nat.add_comm]
  nsmul := nsmulRec

/-- Counters are added one by one. -/
theorem sum_map {α : Type} (items : List α) (f : α → Stats) :
    (items.map f).sum =
      ⟨(items.map fun item => (f item).created).sum, (items.map fun item => (f item).reused).sum,
        (items.map fun item => (f item).disposed).sum, (items.map fun item => (f item).detached).sum,
        (items.map fun item => (f item).attached).sum⟩ := by
  induction items with
  | nil => rfl
  | cons item rest ih =>
      simp only [List.map_cons, List.sum_cons, ih]
      rfl

@[simp] theorem reused_add (a b : Stats) : (a + b).reused = a.reused + b.reused := rfl

@[simp] theorem disposed_add (a b : Stats) : (a + b).disposed = a.disposed + b.disposed := rfl

/-- What nodes add that are created. -/
def made (count : Nat) : Stats := ⟨count, 0, 0, 0, 0⟩

theorem made_add (a b : Nat) : made (a + b) = made a + made b := rfl

/-- What a node adds that is kept, with the trees `olds` below it before and the
trees `news` afterwards. -/
def kept (olds news : List (VirtualTree H)) : Stats :=
  ⟨0, 1, 0, olds.length - agreeing olds news, news.length - agreeing olds news⟩

/-- What a live subtree adds that is disposed of. -/
def gone : Stats := ⟨0, 0, 1, 0, 0⟩

end Stats

/-! ## What a position adds -/

/-- What a position adds to the counters, below an old and a new tree that may be
missing. -/
def tally : List Nat → Option (VirtualTree H) → Option (VirtualTree H) → Stats
  | [], some old, some new =>
    if old.tag = new.tag then .kept old.children new.children else .gone
  | [], some _, none => .gone
  | index :: path, some old, some new =>
    if old.tag = new.tag then tally path old.children[index]? new.children[index]? else 0
  | _, _, _ => 0

/-- What a position adds in a row of trees. -/
def tallyRow (olds news : List (VirtualTree H)) : List Nat → Stats
  | [] => 0
  | index :: path => tally path olds[index]? news[index]?

theorem tallyRow_behind (old : VirtualTree H) (olds news : List (VirtualTree H))
    (path : List Nat) : tallyRow (old :: olds) news (behind path) = tallyRow olds news.tail path := by
  cases path with
  | nil => rfl
  | cons index path => cases news <;> rfl

theorem sum_positionsAll (tree : VirtualTree H) (rest : List (VirtualTree H))
    (f : List Nat → Stats) : ((positionsAll (tree :: rest)).map f).sum =
      (tree.positions.map fun path => f (0 :: path)).sum +
        ((positionsAll rest).map fun path => f (behind path)).sum := by
  rw [positionsAll, List.map_append, List.sum_append, List.map_map, List.map_map]
  rfl

/-- If only the root adds something, the tree adds that. -/
theorem sum_positions_of_root {tree : VirtualTree H} {f : List Nat → Stats}
    (h : ∀ path ∈ positionsAll tree.children, f path = 0) : (tree.positions.map f).sum = f [] := by
  rw [positions_eq, List.map_cons, List.sum_cons, List.map_congr_left h]
  simp

/-- Old trees without new ones are disposed of, one by one. -/
theorem sum_tallyRow_nil (olds : List (VirtualTree H)) :
    ((positionsAll olds).map (tallyRow olds [])).sum = ⟨0, 0, olds.length, 0, 0⟩ := by
  induction olds with
  | nil => rfl
  | cons old olds ih =>
      have hFirst : (old.positions.map fun path => tallyRow (old :: olds) [] (0 :: path)).sum =
          .gone := by
        refine (sum_positions_of_root fun path hMem => ?_).trans rfl
        cases path with
        | nil => simp [VirtualTree.mem_positionsAll, VirtualTree.rowAt?] at hMem
        | cons index path => rfl
      simp only [sum_positionsAll, hFirst, tallyRow_behind, List.tail_nil, ih]
      rw [Stats.gone, Stats.add_mk, List.length_cons, Nat.add_comm olds.length]

/-- Trees with the same tag add what the root does and what their children do. -/
theorem sum_tally_of_eq {old new : VirtualTree H} (h : old.tag = new.tag) :
    (old.positions.map fun path => tally path (some old) (some new)).sum =
      .kept old.children new.children +
        ((positionsAll old.children).map (tallyRow old.children new.children)).sum := by
  rw [positions_eq, List.map_cons, List.sum_cons, tally, if_pos h]
  refine congrArg (_ + List.sum ·) (List.map_congr_left fun path hMem => ?_)
  cases path with
  | nil => simp [VirtualTree.mem_positionsAll, VirtualTree.rowAt?] at hMem
  | cons index path => rw [tally, if_pos h, tallyRow]

/-- Trees with other tags are disposed of at the root. -/
theorem sum_tally_of_ne {old new : VirtualTree H} (h : old.tag ≠ new.tag) :
    (old.positions.map fun path => tally path (some old) (some new)).sum = .gone := by
  rw [sum_positions_of_root fun path hMem => ?_]
  · rw [tally, if_neg h]
  · cases path with
    | nil => simp [VirtualTree.mem_positionsAll, VirtualTree.rowAt?] at hMem
    | cons index path => rw [tally, if_neg h]

/-- **A position of the old tree adds what is said of it**: it is shared, or
dropped, or it lies below a dropped one. -/
theorem tally_eq (path : List Nat) (old new : VirtualTree H)
    (hAt : (old.at? path).isSome = true) :
    tally path (some old) (some new) =
      if path ∈ shared old new then .kept (old.childrenAt path) (new.childrenAt path)
      else if path = [] ∨ path.dropLast ∈ shared old new then .gone else 0 := by
  induction path generalizing old new with
  | nil =>
      simp only [tally, VirtualTree.nil_mem_shared, true_or, if_true]
      rfl
  | cons index path ih =>
      by_cases hTag : old.tag = new.tag
      · rw [VirtualTree.at?] at hAt
        obtain ⟨found, hFound⟩ := Option.isSome_iff_exists.mp hAt
        obtain ⟨child, hChild, hBelow⟩ := Option.bind_eq_some_iff.mp hFound
        have hShared (below : List Nat) : index :: below ∈ shared old new ↔
            ∃ now, new.children[index]? = some now ∧ below ∈ shared child now :=
          VirtualTree.cons_mem_shared hTag hChild
        -- The parent of a child is the root, which is shared.
        have hParent : (index :: path).dropLast ∈ shared old new ↔ path = [] ∨
            ∃ now, new.children[index]? = some now ∧ path.dropLast ∈ shared child now := by
          cases path with
          | nil => simpa [VirtualTree.nil_mem_shared] using hTag
          | cons next path => simp [hShared]
        simp only [tally, if_pos hTag, hChild, hShared, hParent, reduceCtorEq, false_or]
        cases hNow : new.children[index]? with
        | none => cases path <;> simp [tally]
        | some now =>
            have hHere := ih child now (by rw [hBelow]; rfl)
            simpa [VirtualTree.childrenAt_cons hChild, VirtualTree.childrenAt_cons hNow] using hHere
      · have hNot := VirtualTree.not_mem_shared_of_ne hTag
        simp [tally, hTag, hNot]

theorem sum_ite {α : Type} (items : List α) (p : α → Prop) [DecidablePred p] (f : α → Stats) :
    (items.map fun item => if p item then f item else 0).sum =
      ((items.filter (p ·)).map f).sum := by
  induction items with
  | nil => rfl
  | cons item rest ih =>
      rw [List.map_cons, List.sum_cons, ih, List.filter_cons]
      by_cases h : p item <;> simp [h]

/-- The positions of the old tree add what the shared ones and the dropped ones do. -/
theorem sum_tally (old new : VirtualTree H) :
    (old.positions.map fun path => tally path (some old) (some new)).sum =
      ((shared old new).map fun path => Stats.kept (old.childrenAt path) (new.childrenAt path)).sum +
        ((dropped old new).map fun _ => Stats.gone).sum := by
  rw [shared, dropped, ← sum_ite, ← sum_ite, ← List.sum_map_add]
  refine congrArg List.sum (List.map_congr_left fun path hMem => ?_)
  have hShared : path ∈ shared old new ↔ old.tagsTo path = new.tagsTo path := by
    rw [shared, List.mem_filter, and_iff_right hMem, decide_eq_true_iff]
  rw [tally_eq path old new ((VirtualTree.mem_positions old path).mp hMem)]
  by_cases hTags : old.tagsTo path = new.tagsTo path <;> simp [hShared, hTags]

/-! ## What a turn adds -/

namespace LiveTree

theorem stats_meet_of_eq {next : Nat} {live : LiveTree H} {old : VirtualTree H} {tag : String}
    {fresh : Properties H} {news : List (VirtualTree H)} (h : old.tag = tag) :
    (meet next live old (.node tag fresh news)).stats =
      ⟨0, 1, 0, 0, 0⟩ + (meetAll next live.children old.children news).stats +
        editStats (live.children.map root)
          ((meetAll next live.children old.children news).trees.map root) := by
  cases live
  rw [meet, if_neg (not_not_intro h)]
  rfl

/-- The edits below a kept node, where no child is missing. -/
theorem editStats_meetAll (news : List (VirtualTree H)) {next : Nat} {lives : List (LiveTree H)}
    {olds : List (VirtualTree H)} (hLength : lives.length = olds.length)
    (hOld : Old next (idsAll lives)) :
    ⟨0, 1, 0, 0, 0⟩ + editStats (lives.map root) ((meetAll next lives olds news).trees.map root) =
      Stats.kept olds news := by
  have hKept := keptLength_meetAll news next lives olds hOld
  rw [hLength, List.take_length] at hKept
  rw [editStats, hKept, List.length_map, List.length_map, length_meetAll, hLength, Stats.kept,
    Stats.add_mk]
  simp only [Nat.zero_add]

theorem length_eq_of_shapeAll {lives : List (LiveTree H)} {trees : List (VirtualTree H)}
    (h : shapeAll lives = VirtualTree.shapeAll trees) : lives.length = trees.length := by
  rw [shapeAll_eq_map, VirtualTree.shapeAll_eq_map] at h
  simpa using congrArg List.length h

mutual

/-- The counters of a turn, apart from what it creates, are a sum over the positions
of the old tree. -/
theorem stats_meet : (new : VirtualTree H) → (next : Nat) → (live : LiveTree H) →
    (old : VirtualTree H) → live.shape = old.shape → Old next live.ids →
    (meet next live old new).stats = Stats.made (meet next live old new).stats.created +
      (old.positions.map fun path => tally path (some old) (some new)).sum
  | .node tag fresh news, next, .node id liveTag properties handlers lives, .node oldTag before olds,
      hShape, hOld => by
      by_cases hTag : (VirtualTree.node oldTag before olds).tag = tag
      · rw [shape, VirtualTree.shape, Shape.node.injEq] at hShape
        have hOldBelow : Old next (idsAll lives) :=
          fun other hMem => hOld other (mem_ids_of_mem_children hMem)
        have hBelow := stats_meetAll news next lives olds hShape.2 hOldBelow
        have hEdits := editStats_meetAll news (length_eq_of_shapeAll hShape.2) hOldBelow
        rw [created_meet_of_eq hTag, stats_meet_of_eq hTag, sum_tally_of_eq hTag]
        calc ⟨0, 1, 0, 0, 0⟩ + (meetAll next lives olds news).stats +
              editStats (lives.map root) ((meetAll next lives olds news).trees.map root)
            = (meetAll next lives olds news).stats + Stats.kept olds news := by
              rw [← hEdits]
              abel
          _ = Stats.made (meetAll next lives olds news).stats.created +
                (Stats.kept olds news + ((positionsAll olds).map (tallyRow olds news)).sum) := by
              conv_lhs => rw [hBelow]
              abel
      · have hTag' : (VirtualTree.node oldTag before olds).tag ≠ (VirtualTree.node tag fresh news).tag :=
          hTag
        rw [meet_of_ne hTag', sum_tally_of_ne hTag']
        simp only [Stats.made, Stats.gone, Stats.add_mk, Nat.add_zero, Nat.zero_add]

theorem stats_meetAll : (news : List (VirtualTree H)) → (next : Nat) →
    (lives : List (LiveTree H)) → (olds : List (VirtualTree H)) →
    shapeAll lives = VirtualTree.shapeAll olds → Old next (idsAll lives) →
    (meetAll next lives olds news).stats = Stats.made (meetAll next lives olds news).stats.created +
      ((positionsAll olds).map (tallyRow olds news)).sum
  | [], next, lives, olds, hShape, _ => by
      rw [sum_tallyRow_nil, ← length_eq_of_shapeAll hShape, meetAll]
      simp only [Stats.made, Stats.add_mk, Nat.add_zero, Nat.zero_add]
  | new :: news, next, [], [], _, _ => by
      rw [meetAll_nil]
      rfl
  | new :: news, next, live :: lives, old :: olds, hShape, hOld => by
      rw [shapeAll, VirtualTree.shapeAll, List.cons.injEq] at hShape
      have hFirst := stats_meet new next live old hShape.1
        (hOld.mono (Nat.le_refl _) (by rw [idsAll_cons]; exact List.subset_append_left _ _))
      have hRest := stats_meetAll news (next + (meet next live old new).stats.created) lives olds
        hShape.2 (hOld.mono (Nat.le_add_right _ _)
          (by rw [idsAll_cons]; exact List.subset_append_right _ _))
      rw [meetAll, sum_positionsAll, Stats.created_add]
      simp only [tallyRow_behind, List.tail_cons]
      refine (congrArg₂ (· + ·) hFirst hRest).trans ?_
      rw [Stats.made_add]
      exact add_add_add_comm _ _ _ _

end

/-- **The counters of a turn** are those of the shared positions and the dropped ones. -/
theorem stats_meet_eq (new : VirtualTree H) (next : Nat) (live : LiveTree H) (old : VirtualTree H)
    (hShape : live.shape = old.shape) (hOld : Old next live.ids) :
    (meet next live old new).stats =
      ⟨(meet next live old new).stats.created, (shared old new).length, (dropped old new).length,
        ((shared old new).map fun path =>
          (old.childrenAt path).length - agreeing (old.childrenAt path) (new.childrenAt path)).sum,
        ((shared old new).map fun path =>
          (new.childrenAt path).length - agreeing (old.childrenAt path) (new.childrenAt path)).sum⟩ := by
  refine (stats_meet new next live old hShape hOld).trans ?_
  rw [sum_tally, Stats.sum_map, Stats.sum_map, Stats.add_mk]
  simp [Stats.made, Stats.kept, Stats.gone, Stats.add_mk]

mutual

/-- Every node of the new tree is created or kept. -/
theorem created_add_reused_meet : (new : VirtualTree H) → (next : Nat) → (live : LiveTree H) →
    (old : VirtualTree H) →
    (meet next live old new).stats.created + (meet next live old new).stats.reused = new.count
  | .node tag fresh news, next, live, old => by
      by_cases hTag : old.tag = tag
      · have hBelow := created_add_reused_meetAll news next live.children old.children
        rw [created_meet_of_eq hTag, stats_meet_of_eq hTag, VirtualTree.count]
        simp only [Stats.reused_add, editStats]
        omega
      · have hTag' : old.tag ≠ (VirtualTree.node tag fresh news).tag := hTag
        rw [meet_of_ne hTag']
        rfl

theorem created_add_reused_meetAll : (news : List (VirtualTree H)) → (next : Nat) →
    (lives : List (LiveTree H)) → (olds : List (VirtualTree H)) →
    (meetAll next lives olds news).stats.created + (meetAll next lives olds news).stats.reused =
      VirtualTree.countAll news
  | [], next, lives, olds => by
      rw [meetAll]
      rfl
  | new :: news, next, [], olds => by
      rw [meetAll_of_short (.inl rfl)]
      rfl
  | new :: news, next, live :: lives, [] => by
      rw [meetAll_of_short (.inr rfl)]
      rfl
  | new :: news, next, live :: lives, old :: olds => by
      have hFirst := created_add_reused_meet new next live old
      have hRest := created_add_reused_meetAll news (next + (meet next live old new).stats.created)
        lives olds
      rw [meetAll, Stats.created_add, Stats.reused_add, VirtualTree.countAll]
      omega

end

/-! ## Turns that leave the structure alone -/

/-- Trees in a row with the same shapes agree in all their tags. -/
theorem agreeing_of_shapeAll {olds news : List (VirtualTree H)}
    (h : VirtualTree.shapeAll olds = VirtualTree.shapeAll news) :
    agreeing olds news = olds.length ∧ news.length = olds.length := by
  induction olds generalizing news with
  | nil =>
      cases news with
      | nil => exact ⟨rfl, rfl⟩
      | cons new news => cases h
  | cons old olds ih =>
      cases news with
      | nil => cases h
      | cons new news =>
          rw [VirtualTree.shapeAll, VirtualTree.shapeAll, List.cons.injEq, VirtualTree.shape_eq,
            VirtualTree.shape_eq, Shape.node.injEq] at h
          obtain ⟨hKept, hLength⟩ := ih h.2
          rw [agreeing, if_pos h.1.1, List.length_cons, List.length_cons, hKept, hLength]
          exact ⟨rfl, rfl⟩

mutual

/-- Between trees of one shape all nodes are kept, and no list of children changes. -/
theorem stats_meet_of_shape : (new : VirtualTree H) → (next : Nat) → (live : LiveTree H) →
    (old : VirtualTree H) → live.shape = old.shape → old.shape = new.shape → Old next live.ids →
    (meet next live old new).stats = ⟨0, new.count, 0, 0, 0⟩
  | .node tag fresh news, next, .node id liveTag properties handlers lives, .node oldTag before olds,
      hLive, hShape, hOld => by
      rw [shape, VirtualTree.shape, Shape.node.injEq] at hLive
      rw [VirtualTree.shape, VirtualTree.shape, Shape.node.injEq] at hShape
      have hTag : (VirtualTree.node oldTag before olds).tag = tag := hShape.1
      have hOldBelow : Old next (idsAll lives) :=
        fun other hMem => hOld other (mem_ids_of_mem_children hMem)
      have hBelow := stats_meetAll_of_shape news next lives olds hLive.2 hShape.2 hOldBelow
      have hEdits := editStats_meetAll news (length_eq_of_shapeAll hLive.2) hOldBelow
      obtain ⟨hKept, hLength⟩ := agreeing_of_shapeAll hShape.2
      rw [stats_meet_of_eq hTag, add_right_comm]
      refine (congrArg₂ (· + ·) hEdits hBelow).trans ?_
      rw [Stats.kept, hKept, hLength, Nat.sub_self, VirtualTree.count]
      rfl

theorem stats_meetAll_of_shape : (news : List (VirtualTree H)) → (next : Nat) →
    (lives : List (LiveTree H)) → (olds : List (VirtualTree H)) →
    shapeAll lives = VirtualTree.shapeAll olds →
    VirtualTree.shapeAll olds = VirtualTree.shapeAll news → Old next (idsAll lives) →
    (meetAll next lives olds news).stats = ⟨0, VirtualTree.countAll news, 0, 0, 0⟩
  | [], next, lives, olds, hLive, hShape, _ => by
      rw [meetAll, length_eq_of_shapeAll hLive, ← (agreeing_of_shapeAll hShape).2]
      rfl
  | new :: news, next, _, [], _, hShape, _ => by cases hShape
  | new :: news, next, [], old :: olds, hLive, _, _ => by cases hLive
  | new :: news, next, live :: lives, old :: olds, hLive, hShape, hOld => by
      rw [shapeAll, VirtualTree.shapeAll, List.cons.injEq] at hLive
      rw [VirtualTree.shapeAll, VirtualTree.shapeAll, List.cons.injEq] at hShape
      have hFirst := stats_meet_of_shape new next live old hLive.1 hShape.1
        (hOld.mono (Nat.le_refl _) (by rw [idsAll_cons]; exact List.subset_append_left _ _))
      have hRest := stats_meetAll_of_shape news (next + (meet next live old new).stats.created)
        lives olds hLive.2 hShape.2 (hOld.mono (Nat.le_add_right _ _)
          (by rw [idsAll_cons]; exact List.subset_append_right _ _))
      rw [meetAll]
      refine (congrArg₂ (· + ·) hFirst hRest).trans ?_
      rw [Stats.add_mk, VirtualTree.countAll]

end

mutual

/-- A pass that creates and disposes of nothing is about two trees of one shape. -/
theorem shape_eq_of_still : (new : VirtualTree H) → (next : Nat) → (live : LiveTree H) →
    (old : VirtualTree H) → live.shape = old.shape → (meet next live old new).stats.created = 0 →
    (meet next live old new).stats.disposed = 0 → old.shape = new.shape
  | .node tag fresh news, next, .node id liveTag properties handlers lives, .node oldTag before olds,
      hLive, hCreated, hDisposed => by
      by_cases hTag : (VirtualTree.node oldTag before olds).tag = tag
      · rw [shape, VirtualTree.shape, Shape.node.injEq] at hLive
        rw [created_meet_of_eq hTag] at hCreated
        rw [stats_meet_of_eq hTag] at hDisposed
        simp only [Stats.disposed_add, editStats, Nat.zero_add, Nat.add_zero] at hDisposed
        have hBelow := shapeAll_eq_of_still news next lives olds hLive.2 hCreated hDisposed
        rw [VirtualTree.shape, VirtualTree.shape, hBelow, show oldTag = tag from hTag]
      · have hTag' : (VirtualTree.node oldTag before olds).tag ≠ (VirtualTree.node tag fresh news).tag :=
          hTag
        have hPos := VirtualTree.count_pos (VirtualTree.node tag fresh news)
        rw [meet_of_ne hTag'] at hCreated
        exact absurd hCreated (Nat.ne_of_gt hPos)

theorem shapeAll_eq_of_still : (news : List (VirtualTree H)) → (next : Nat) →
    (lives : List (LiveTree H)) → (olds : List (VirtualTree H)) →
    shapeAll lives = VirtualTree.shapeAll olds →
    (meetAll next lives olds news).stats.created = 0 →
    (meetAll next lives olds news).stats.disposed = 0 →
    VirtualTree.shapeAll olds = VirtualTree.shapeAll news
  | [], next, lives, olds, hLive, _, hDisposed => by
      rw [meetAll, length_eq_of_shapeAll hLive, List.length_eq_zero_iff] at hDisposed
      rw [hDisposed]
  | new :: news, next, [], [], _, hCreated, _ => by
      have hPos := VirtualTree.count_pos new
      rw [meetAll_nil, VirtualTree.countAll] at hCreated
      exact absurd (Nat.eq_zero_of_add_eq_zero_right hCreated) (Nat.ne_of_gt hPos)
  | new :: news, next, live :: lives, old :: olds, hLive, hCreated, hDisposed => by
      rw [shapeAll, VirtualTree.shapeAll, List.cons.injEq] at hLive
      rw [meetAll, Stats.created_add, Nat.add_eq_zero_iff] at hCreated
      rw [meetAll, Stats.disposed_add, Nat.add_eq_zero_iff] at hDisposed
      rw [VirtualTree.shapeAll, VirtualTree.shapeAll,
        shape_eq_of_still new next live old hLive.1 hCreated.1 hDisposed.1,
        shapeAll_eq_of_still news _ lives olds hLive.2 hCreated.2 hDisposed.2]

end

end LiveTree

/-! ## How many nodes there are -/

/-- **An arena grows by what is shown and shrinks by what is gone**, where every node
that is gone was there and every node that is shown is one of those or is new. -/
theorem Arena.Redrawn.size {before after : Arena H} {gone : List Handle}
    {shown : List (Handle × Node H)} {fresh : Nat} {made : List (Call H)}
    (h : before.Redrawn after gone shown fresh made) (hNodup : gone.Nodup)
    (hGone : ∀ id ∈ gone, (before.node? id).isSome = true) (hShown : (shown.map Prod.fst).Nodup)
    (hApart : ∀ id ∈ shown.map Prod.fst, id ∈ gone ∨ before.node? id = none) :
    after.size + gone.length = before.size + shown.length := by
  let stay := before.slots.liveIds.filter (· ∉ gone)
  have hStay (id : Handle) : id ∈ stay ↔ (before.node? id).isSome = true ∧ id ∉ gone := by
    rw [List.mem_filter, Slots.mem_liveIds, decide_eq_true_iff]
    rfl
  have hStayNodup : stay.Nodup := before.slots.nodup_liveIds.filter _
  have hBefore : before.size = (stay ++ gone).length := by
    refine Slots.liveCount_eq_length (List.nodup_append.mpr ⟨hStayNodup, hNodup, ?_⟩) fun id => ?_
    · rintro id hMem _ hIn rfl
      exact ((hStay id).mp hMem).2 hIn
    · rw [List.mem_append, hStay]
      refine ⟨fun hMem => hMem.elim And.left (hGone id), fun hThere => ?_⟩
      by_cases hIn : id ∈ gone
      · exact .inr hIn
      · exact .inl ⟨hThere, hIn⟩
  have hAfter : after.size = (stay ++ shown.map Prod.fst).length := by
    refine Slots.liveCount_eq_length (List.nodup_append.mpr ⟨hStayNodup, hShown, ?_⟩) fun id => ?_
    · rintro id hMem _ hIn rfl
      obtain ⟨hThere, hNot⟩ := (hStay id).mp hMem
      rw [(hApart id hIn).resolve_left hNot] at hThere
      cases hThere
    · rw [List.mem_append, hStay]
      change _ ↔ (after.node? id).isSome = true
      by_cases hIn : id ∈ shown.map Prod.fst
      · obtain ⟨entry, hEntry, rfl⟩ := List.mem_map.mp hIn
        rw [show after.node? entry.1 = some entry.2 from h.shows entry hEntry]
        exact ⟨fun _ => rfl, fun _ => .inr hIn⟩
      · by_cases hOut : id ∈ gone
        · simp [h.empties id hOut hIn, hIn, hOut]
        · rw [h.keeps id hOut hIn]
          simp [hIn, hOut]
  rw [hBefore, hAfter, List.length_append, List.length_append, List.length_map]
  omega

theorem Stats.isStructuralNoop_iff (stats : Stats) : stats.isStructuralNoop = true ↔
    stats.created = 0 ∧ stats.disposed = 0 ∧ stats.detached = 0 ∧ stats.attached = 0 := by
  simp [isStructuralNoop, and_assoc]

/-- A pass over a live tree that has the shape of the old virtual tree is its turn. -/
theorem Pass.turned_reconcile (arena : Arena H) (live : LiveTree H) (old new : VirtualTree H)
    (hHolds : arena.Holds live.nodes) (hNodup : live.ids.Nodup) (hShape : live.shape = old.shape) :
    let turn := LiveTree.meet arena.slots.length live old new
    let turned := (Pass.start arena).reconcile (some live.root) (some old) (some new)
    turned.1 = some turn.tree.root ∧ turned.2.stats = turn.stats ∧
      arena.Redrawn turned.2.arena live.ids turn.tree.nodes turn.stats.created turn.made := by
  intro turn turned
  have hFollows := LiveTree.follows_of_shape live old hShape
  obtain ⟨hRoot, hTurned⟩ := turned_meet new (.start arena) live old hHolds hNodup hFollows
  exact ⟨congrArg some hRoot, hTurned.stats.trans (Stats.zero_add _), hTurned.arena⟩

/-- **The counters of a pass count positions.** The kept nodes are the shared
positions, the created ones are the other positions of the new tree, and a live
subtree is disposed of for every dropped position. The arena grows by the
difference of the trees, and the structure is left alone exactly between trees of
one shape. -/
theorem accounted_reconcile (arena : Arena H) (live : LiveTree H) (old new : VirtualTree H)
    (hHolds : arena.Holds live.nodes) (hNodup : live.ids.Nodup) (hShape : live.shape = old.shape) :
    let turned := ((Pass.start arena).reconcile (some live.root) (some old) (some new)).2
    turned.stats.reused = (shared old new).length ∧
      turned.stats.created + (shared old new).length = new.count ∧
      turned.stats.disposed = (dropped old new).length ∧
      (turned.arena.size : Int) - arena.size = (new.count : Int) - old.count ∧
      (turned.stats.isStructuralNoop = true ↔ old.shape = new.shape) := by
  intro turned
  let turn := meet arena.slots.length live old new
  obtain ⟨-, hStats, hRedrawn⟩ := Pass.turned_reconcile arena live old new hHolds hNodup hShape
  have hFollows := LiveTree.follows_of_shape live old hShape
  have hOld := Pass.old_of_holds hHolds
  have hSum : turn.stats = _ := LiveTree.stats_meet_eq new arena.slots.length live old hShape hOld
  have hCount : turn.stats.created + turn.stats.reused = new.count :=
    LiveTree.created_add_reused_meet new arena.slots.length live old
  have hReused : turn.stats.reused = (shared old new).length := congrArg Stats.reused hSum
  rw [show turned.stats = turn.stats from hStats]
  refine ⟨hReused, hReused ▸ hCount, congrArg Stats.disposed hSum, ?_, ?_⟩
  · have hSize := hRedrawn.size hNodup (fun id => LiveTree.isSome_node?_of_holds hHolds)
      (LiveTree.nodup_ids_meet new _ live old hNodup hOld) fun id hMem => by
        refine (LiveTree.mem_ids_meet new _ live old id hMem).imp_right ?_
        rintro ⟨number, rfl, hLe, -⟩
        exact arena.node?_eq_none_of_le hLe
    have hBefore : live.ids.length = old.count := by
      rw [LiveTree.length_ids, hShape, VirtualTree.count_shape]
    have hAfter : turn.tree.nodes.length = new.count := by
      rw [← VirtualTree.count_shape, ← LiveTree.shape_meet new _ live old hFollows,
        ← LiveTree.length_ids, LiveTree.ids, List.length_map]
    rw [hBefore, hAfter] at hSize
    change turned.arena.size + old.count = arena.size + new.count at hSize
    omega
  · rw [Stats.isStructuralNoop_iff]
    constructor
    · rintro ⟨hCreated, hDisposed, -, -⟩
      exact LiveTree.shape_eq_of_still new _ live old hShape hCreated hDisposed
    · intro hSame
      have hStill : turn.stats = _ := LiveTree.stats_meet_of_shape new _ live old hShape hSame hOld
      rw [hStill]
      exact ⟨rfl, rfl, rfl, rfl⟩

/-- A list of three rows, the second of which gets another tag and a child, while
the third is left out. -/
theorem accounted_reconcile_rows :
    let row : VirtualTree Unit := .node "row" .empty []
    let old : VirtualTree Unit := .node "list" .empty [row, row, row]
    let new : VirtualTree Unit := .node "list" .empty [row, .node "group" .empty [row]]
    let live := mount 0 old
    let arena := (Pass.create (.start .empty) old).2.arena
    let turned := ((Pass.start arena).reconcile (some live.root) (some old) (some new)).2
    arena.Holds live.nodes ∧ live.ids.Nodup ∧ live.shape = old.shape ∧
      shared old new = [[], [0]] ∧ dropped old new = [[1], [2]] ∧
      turned.stats.reused = 2 ∧ turned.stats.created = 2 ∧ turned.stats.disposed = 2 ∧
      turned.arena.size = arena.size ∧ turned.stats.isStructuralNoop = false := by
  intro row old new live arena
  have hHolds : arena.Holds live.nodes := (Pass.turned_create old (.start .empty)).2.arena.shows
  have hNodup : live.ids.Nodup := LiveTree.nodup_ids_mount old 0
  have hShape : live.shape = old.shape := LiveTree.shape_mount old 0
  have hShared : shared old new = [[], [0]] := by decide +kernel
  have hDropped : dropped old new = [[1], [2]] := by decide +kernel
  have hCounts : old.count = 4 ∧ new.count = 4 := by decide +kernel
  have hShapes : old.shape ≠ new.shape := by decide +kernel
  have hAccounted := accounted_reconcile arena live old new hHolds hNodup hShape
  -- What the pass is does not matter any more.
  generalize ((Pass.start arena).reconcile (some live.root) (some old) (some new)).2 = turned
    at hAccounted ⊢
  obtain ⟨hReused, hCreated, hDisposed, hSize, hNoop⟩ := hAccounted
  rw [hShared] at hReused hCreated
  rw [hDropped] at hDisposed
  rw [hCounts.2] at hCreated
  rw [hCounts.1, hCounts.2, sub_self] at hSize
  exact ⟨hHolds, hNodup, hShape, hShared, hDropped, hReused, Nat.add_right_cancel hCreated,
    hDisposed, Int.ofNat.inj (Int.eq_of_sub_eq_zero hSize),
    Bool.eq_false_iff.mpr fun hTrue => hShapes (hNoop.mp hTrue)⟩

end LiveMarkup.Live
