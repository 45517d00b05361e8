import LiveMarkup.Proofs.Live.History
import LiveMarkup.Proofs.Live.Sharing
import LiveMarkup.Proofs.Live.Snapshot

/-!
# Views do not see one another

In an arena that several views share, the handles that a view gets depend on
what the others have built. Nothing else does: what a turn makes of a live tree
is the same up to handles whatever they are, and so are its counters. So each
rebuild of a view leaves the snapshot and the counters that it would leave if
the view had an arena of its own.

The counters do compare handles, those of the old list of children with those of
the new one. `agreeing` says without them how many children are kept.

## Main results

* `keptLength_meetAll` — the children that are kept are the leading ones whose
  tags agree.
* `anonymous_meet` — a turn is the same up to handles.
* `look_run` — in any run a view shows what it would show alone.
* `isolated_run` — **views do not see one another**.
-/

namespace LiveMarkup.Live

variable {H : Type} {n : Nat}

/-! ## How many children are kept -/

/-- The number of leading positions at which two lists of trees have equal tags. -/
def agreeing : List (VirtualTree H) → List (VirtualTree H) → Nat
  | old :: olds, new :: news => if old.tag = new.tag then agreeing olds news + 1 else 0
  | _, _ => 0

namespace LiveTree

theorem Old.mono {next next' : Nat} {ids fewer : List Handle} (h : Old next ids)
    (hNext : next ≤ next') (hSub : fewer ⊆ ids) : Old next' fewer := by
  intro id hMem
  obtain ⟨number, hId, hLt⟩ := h id (hSub hMem)
  exact ⟨number, hId, by omega⟩

/-- An old handle is not the next one. -/
theorem Old.ne_next {next : Nat} {ids : List Handle} (h : Old next ids) {id : Handle}
    (hMem : id ∈ ids) : id ≠ .node next := by
  rintro rfl
  obtain ⟨number, hEq, hLt⟩ := h _ hMem
  cases hEq
  omega

theorem root_meet_of_eq {next : Nat} {live : LiveTree H} {old new : VirtualTree H}
    (h : old.tag = new.tag) : (meet next live old new).tree.root = live.root := by
  obtain ⟨tag, fresh, news⟩ := new
  have hTag : old.tag = tag := h
  rw [tree_meet_of_eq hTag]
  rfl

theorem root_meet_of_ne {next : Nat} {live : LiveTree H} {old new : VirtualTree H}
    (h : old.tag ≠ new.tag) : (meet next live old new).tree.root = .node next := by
  rw [meet_of_ne h, root_mount]

theorem length_mountAll (trees : List (VirtualTree H)) (next : Nat) :
    (mountAll next trees).length = trees.length := by
  induction trees generalizing next with
  | nil => rfl
  | cons tree rest ih => rw [mountAll, List.length_cons, List.length_cons, ih]

/-- Every new position has its live tree. -/
theorem length_meetAll (news : List (VirtualTree H)) (next : Nat) (lives : List (LiveTree H))
    (olds : List (VirtualTree H)) : (meetAll next lives olds news).trees.length = news.length := by
  induction news generalizing next lives olds with
  | nil =>
      rw [meetAll]
      rfl
  | cons new news ih =>
      cases lives with
      | nil => exact length_mountAll (new :: news) next
      | cons live lives =>
          cases olds with
          | nil => exact length_mountAll (new :: news) next
          | cons old olds => rw [meetAll, List.length_cons, List.length_cons, ih]

/-- **The children that are kept** are the leading ones whose tags agree. -/
theorem keptLength_meetAll (news : List (VirtualTree H)) (next : Nat) (lives : List (LiveTree H))
    (olds : List (VirtualTree H)) (hOld : Old next (idsAll lives)) :
    keptLength (lives.map root) ((meetAll next lives olds news).trees.map root) =
      agreeing (olds.take lives.length) news := by
  induction news generalizing next lives olds with
  | nil =>
      rw [meetAll]
      cases lives <;> cases olds <;> rfl
  | cons new news ih =>
      cases lives with
      | nil =>
          rw [List.length_nil, List.take_zero]
          rfl
      | cons live lives =>
          have hRoot : live.root ∈ idsAll (live :: lives) := by
            rw [idsAll_cons]
            exact List.mem_append_left _ (root_mem_ids live)
          have hFresh := hOld.ne_next hRoot
          cases olds with
          | nil =>
              rw [meetAll_of_short (.inr rfl), mountAll, List.map_cons, List.map_cons, root_mount,
                keptLength, if_neg hFresh]
              rfl
          | cons old olds =>
              rw [meetAll, List.map_cons, List.map_cons, keptLength, List.length_cons,
                List.take_succ_cons, agreeing]
              by_cases hTag : old.tag = new.tag
              · have hBehind : Old (next + (meet next live old new).stats.created)
                    (idsAll lives) := by
                  refine hOld.mono (Nat.le_add_right _ _) ?_
                  rw [idsAll_cons]
                  exact List.subset_append_right _ _
                rw [root_meet_of_eq hTag, if_pos rfl, if_pos hTag, ih _ lives olds hBehind]
              · rw [root_meet_of_ne hTag, if_neg hFresh, if_neg hTag]

/-! ## Turns up to handles -/

theorem length_anonymousAll (trees : List (LiveTree H)) :
    (anonymousAll trees).length = trees.length := by
  induction trees with
  | nil => rfl
  | cons tree rest ih => rw [anonymousAll, List.length_cons, List.length_cons, ih]

mutual

theorem anonymous_mount : (tree : VirtualTree H) → (next next' : Nat) →
    (mount next tree).anonymous = (mount next' tree).anonymous
  | .node _ _ children, next, next' => by
      rw [mount, mount, anonymous, anonymous, anonymousAll_mountAll children]

theorem anonymousAll_mountAll : (trees : List (VirtualTree H)) → (next next' : Nat) →
    anonymousAll (mountAll next trees) = anonymousAll (mountAll next' trees)
  | [], _, _ => rfl
  | tree :: rest, next, next' => by
      rw [mountAll, mountAll, anonymousAll, anonymousAll, anonymous_mount tree next next',
        anonymousAll_mountAll rest]

end

/-- Two turns that are the same up to handles. -/
structure SameTurn (turn turn' : Turn H) : Prop where
  tree : turn.tree.anonymous = turn'.tree.anonymous
  stats : turn.stats = turn'.stats

/-- Turns in a row that are the same up to handles. -/
structure SameTurns (turns turns' : Turns H) : Prop where
  trees : anonymousAll turns.trees = anonymousAll turns'.trees
  stats : turns.stats = turns'.stats

mutual

/-- **A turn is the same up to handles**, whatever the handles are. -/
theorem anonymous_meet : (new : VirtualTree H) → (next next' : Nat) →
    (live live' : LiveTree H) → (old : VirtualTree H) → live.anonymous = live'.anonymous →
    Old next live.ids → Old next' live'.ids →
    SameTurn (meet next live old new) (meet next' live' old new)
  | .node tag fresh news, next, next', .node id liveTag properties handlers lives,
      .node id' liveTag' properties' handlers' lives', old, hLook, hOld, hOld' => by
      rw [anonymous, anonymous, node.injEq] at hLook
      obtain ⟨-, rfl, rfl, rfl, hBelow⟩ := hLook
      by_cases hTag : old.tag = tag
      · rw [ids_node] at hOld hOld'
        have hOldBelow := hOld.mono (Nat.le_refl _) (List.subset_cons_self id (idsAll lives))
        have hOldBelow' := hOld'.mono (Nat.le_refl _) (List.subset_cons_self id' (idsAll lives'))
        have hSame := anonymousAll_meetAll news next next' lives lives' old.children hBelow
          hOldBelow hOldBelow'
        have hLength : lives.length = lives'.length := by
          rw [← length_anonymousAll lives, hBelow, length_anonymousAll]
        rw [meet, meet, if_neg (not_not_intro hTag), if_neg (not_not_intro hTag)]
        refine ⟨?_, ?_⟩
        · rw [anonymous, anonymous, hSame.trees]
        · -- The counters of the edits are told by lengths and by tags.
          simp only [editStats, keptLength_meetAll news next lives old.children hOldBelow,
            keptLength_meetAll news next' lives' old.children hOldBelow', List.length_map,
            length_meetAll, hLength, hSame.stats]
      · have hTag' : old.tag ≠ (VirtualTree.node tag fresh news).tag := hTag
        rw [meet_of_ne hTag', meet_of_ne hTag']
        exact ⟨anonymous_mount _ next next', rfl⟩

theorem anonymousAll_meetAll : (news : List (VirtualTree H)) → (next next' : Nat) →
    (lives lives' : List (LiveTree H)) → (olds : List (VirtualTree H)) →
    anonymousAll lives = anonymousAll lives' → Old next (idsAll lives) →
    Old next' (idsAll lives') →
    SameTurns (meetAll next lives olds news) (meetAll next' lives' olds news)
  | [], next, next', lives, lives', olds, hLook, _, _ => by
      have hLength : lives.length = lives'.length := by
        rw [← length_anonymousAll lives, hLook, length_anonymousAll]
      rw [meetAll, meetAll, hLength]
      exact ⟨rfl, rfl⟩
  | new :: news, next, next', [], lives', olds, hLook, _, _ => by
      obtain rfl : lives' = [] := by
        rw [← List.length_eq_zero_iff, ← length_anonymousAll, ← hLook]
        rfl
      rw [meetAll_nil, meetAll_nil]
      exact ⟨anonymousAll_mountAll _ next next', rfl⟩
  | new :: news, next, next', live :: lives, [], olds, hLook, _, _ => by
      rw [anonymousAll, anonymousAll] at hLook
      cases hLook
  | new :: news, next, next', live :: lives, live' :: lives', [], _, _, _ => by
      rw [meetAll_of_short (.inr rfl), meetAll_of_short (.inr rfl)]
      exact ⟨anonymousAll_mountAll _ next next', rfl⟩
  | new :: news, next, next', live :: lives, live' :: lives', old :: olds, hLook, hOld, hOld' => by
      rw [anonymousAll, anonymousAll, List.cons.injEq] at hLook
      rw [idsAll_cons] at hOld hOld'
      have hFirst := anonymous_meet new next next' live live' old hLook.1
        (hOld.mono (Nat.le_refl _) (List.subset_append_left _ _))
        (hOld'.mono (Nat.le_refl _) (List.subset_append_left _ _))
      have hRest := anonymousAll_meetAll news _ _ lives lives' olds hLook.2
        (hOld.mono (Nat.le_add_right next (meet next live old new).stats.created)
          (List.subset_append_right _ _))
        (hOld'.mono (Nat.le_add_right next' (meet next' live' old new).stats.created)
          (List.subset_append_right _ _))
      rw [meetAll, meetAll]
      refine ⟨?_, ?_⟩
      · rw [anonymousAll, anonymousAll, hFirst.tree, hRest.trees]
      · exact congrArg₂ (· + ·) hFirst.stats hRest.stats

end

end LiveTree

namespace View

/-- What a view shows, with the handles taken away. -/
def anonymous (view : View H) : View H :=
  view.map fun shown => (shown.1.anonymous, shown.2)

/-- The turns of two views that are the same up to handles are so as well. -/
theorem sameTurn {view view' : View H} {next next' : Nat}
    (hLook : view.anonymous = view'.anonymous) (hOld : LiveTree.Old next view.ids)
    (hOld' : LiveTree.Old next' view'.ids) (new : VirtualTree H) :
    LiveTree.SameTurn (view.turn next new) (view'.turn next' new) := by
  cases view with
  | none =>
      cases view' with
      | none => exact ⟨LiveTree.anonymous_mount new next next', rfl⟩
      | some shown' => cases hLook
  | some shown =>
      cases view' with
      | none => cases hLook
      | some shown' =>
          obtain ⟨live, old⟩ := shown
          obtain ⟨live', old'⟩ := shown'
          simp only [anonymous, Option.map_some, Option.some.injEq, Prod.mk.injEq] at hLook
          obtain ⟨hLive, rfl⟩ := hLook
          exact LiveTree.anonymous_meet new next next' live live' old hLive hOld hOld'

end View

theorem Retained.Shows.old {retained : Retained H} {arena : Arena H} {view : View H}
    (hShows : retained.Shows arena view) : LiveTree.Old arena.slots.length view.ids := by
  cases view with
  | none => exact fun _ hMem => absurd hMem List.not_mem_nil
  | some shown => exact Pass.old_of_holds hShows.holds

/-! ## Runs -/

/-- What is to be seen of a view: the counters of its last rebuild, and the
snapshot of its live root. -/
def Binding.look (binding : Binding H) (arena : Arena H) : Stats × Option String :=
  (binding.lastStats, binding.retained.root.map arena.snapshot)

/-- Two views in arenas that show the same up to handles. -/
structure Binding.Alike (binding : Binding H) (arena : Arena H) (view : View H)
    (binding' : Binding H) (arena' : Arena H) (view' : View H) : Prop where
  shows : binding.retained.Shows arena view
  shows' : binding'.retained.Shows arena' view'
  anonymous : view.anonymous = view'.anonymous
  stats : binding.lastStats = binding'.lastStats

namespace Binding.Alike

variable {binding binding' : Binding H} {arena arena' : Arena H} {view view' : View H}

/-- **Views that are rebuilt from the same tree stay alike.** -/
theorem rebuild (h : binding.Alike arena view binding' arena' view') (new : VirtualTree H) :
    (binding.rebuild arena new).1.Alike (binding.rebuild arena new).2.arena
      (view.after arena.slots.length new) (binding'.rebuild arena' new).1
      (binding'.rebuild arena' new).2.arena (view'.after arena'.slots.length new) := by
  have hTurn := View.sameTurn h.anonymous h.shows.old h.shows'.old new
  exact
    { shows := Retained.shows_rebuild h.shows new
      shows' := Retained.shows_rebuild h.shows' new
      anonymous := congrArg (fun tree => some (tree, new)) hTurn.tree
      stats := by
        have hStats := Retained.stats_rebuild h.shows new
        have hStats' := Retained.stats_rebuild h.shows' new
        rw [← hTurn.stats, ← hStats] at hStats'
        exact hStats'.symm }

/-- Views that are alike look the same. -/
theorem look_eq (h : binding.Alike arena view binding' arena' view') :
    binding.look arena = binding'.look arena' := by
  have hSnapshot : binding.retained.root.map arena.snapshot =
      binding'.retained.root.map arena'.snapshot := by
    obtain ⟨hShows, hShows', hLook, -⟩ := h
    cases view with
    | none =>
        cases view' with
        | none =>
            have hNothing : binding.retained = .nothing := hShows
            have hNothing' : binding'.retained = .nothing := hShows'
            rw [hNothing, hNothing']
            rfl
        | some shown' => cases hLook
    | some shown =>
        cases view' with
        | none => cases hLook
        | some shown' =>
            simp only [View.anonymous, Option.map_some, Option.some.injEq, Prod.mk.injEq] at hLook
            rw [hShows.root, hShows'.root, Option.map_some, Option.map_some,
              snapshot_of_holds hShows.holds hShows.nodup,
              snapshot_of_holds hShows'.holds hShows'.nodup,
              ← LiveTree.lines_anonymous shown.1, hLook.1, LiveTree.lines_anonymous]
  rw [look, look, h.stats, hSnapshot]

end Binding.Alike

namespace Shared

/-- The virtual trees that a view has built in a run. -/
def seen (steps : List (Fin n × VirtualTree H)) (who : Fin n) : List (VirtualTree H) :=
  (steps.filter (·.1 = who)).map Prod.snd

theorem seen_append_self (steps : List (Fin n × VirtualTree H)) (who : Fin n)
    (new : VirtualTree H) : seen (steps ++ [(who, new)]) who = seen steps who ++ [new] := by
  simp [seen]

theorem seen_append_of_ne (steps : List (Fin n × VirtualTree H)) {who other : Fin n}
    (hNe : other ≠ who) (new : VirtualTree H) :
    seen (steps ++ [(who, new)]) other = seen steps other := by
  simp [seen, Ne.symm hNe]

/-- What is to be seen of a view in an arena that others share. -/
def look (world : Shared H n) (who : Fin n) : Stats × Option String :=
  (world.bindings who).look world.arena

/-- What is to be seen of a view that has an arena of its own. -/
def lookAlone (trees : List (VirtualTree H)) : Stats × Option String :=
  (Host.after .empty trees).binding.look (Host.after .empty trees).arena

/-- In any run every view is like a view that has built the same trees alone. -/
theorem exists_alike (steps : List (Fin n × VirtualTree H)) :
    ∃ views, (run steps).Displays views ∧ ∀ who, ∃ view,
      ((run steps).bindings who).Alike (run steps).arena (views who)
        (Host.after .empty (seen steps who)).binding (Host.after .empty (seen steps who)).arena
        view := by
  induction steps using List.reverseRecOn with
  | nil =>
      refine ⟨_, Displays.displays_start, fun who => ⟨none, ?_⟩⟩
      exact ⟨rfl, rfl, rfl, rfl⟩
  | append_singleton steps step ih =>
      obtain ⟨views, hDisplays, hAlike⟩ := ih
      obtain ⟨who, new⟩ := step
      have hNext := hDisplays.displays_rebuild who new
      rw [← run_append steps (who, new)] at hNext
      refine ⟨_, hNext, fun other => ?_⟩
      by_cases hEq : other = who
      · subst hEq
        obtain ⟨view, hView⟩ := hAlike other
        rw [run_append, bindings_rebuild_self, Function.update_self, seen_append_self,
          Host.after_concat]
        exact ⟨_, hView.rebuild new⟩
      · -- A view that is not rebuilt stands as it stood.
        obtain ⟨view, hView⟩ := hAlike other
        have hShows := hNext.shows other
        rw [run_append, bindings_rebuild_of_ne _ hEq, Function.update_of_ne hEq] at hShows ⊢
        rw [seen_append_of_ne steps hEq]
        exact ⟨view, { hView with shows := hShows }⟩

/-- **In any run a view shows what it would show alone.** -/
theorem look_run (steps : List (Fin n × VirtualTree H)) (who : Fin n) :
    (run steps).look who = lookAlone (seen steps who) := by
  obtain ⟨views, -, hAlike⟩ := exists_alike steps
  obtain ⟨view, hView⟩ := hAlike who
  exact hView.look_eq

/-- What a view has built at some moment of a run is told by how often it was
rebuilt. -/
theorem seen_eq_take {front steps : List (Fin n × VirtualTree H)} (h : front <+: steps)
    (who : Fin n) : seen front who = (seen steps who).take (seen front who).length := by
  obtain ⟨back, rfl⟩ := h
  have hSplit : seen (front ++ back) who = seen front who ++ seen back who := by
    rw [seen, List.filter_append, List.map_append]
    rfl
  rw [hSplit, List.take_left]

/-- **Views do not see one another.** Take two runs in which every view builds
the same trees in turn, and a moment of each at which a view has been rebuilt
equally often. Then the counters of its last rebuild and the snapshot of its live
root are the same at the two moments, and the same as those of a view that has
built these trees in an arena of its own. -/
theorem isolated_run (steps steps' : List (Fin n × VirtualTree H))
    (hSame : ∀ who, seen steps who = seen steps' who) (who : Fin n)
    (front front' : List (Fin n × VirtualTree H)) (hFront : front <+: steps)
    (hFront' : front' <+: steps') (hCount : (seen front who).length = (seen front' who).length) :
    (run front).look who = (run front').look who ∧
      (run front).look who = lookAlone ((seen steps who).take (seen front who).length) := by
  have hSeen := seen_eq_take hFront who
  have hSeen' := seen_eq_take hFront' who
  rw [← hSame who, ← hCount] at hSeen'
  constructor
  · rw [look_run, look_run, hSeen', ← hSeen]
  · rw [look_run, ← hSeen]

/-- Two views that are rebuilt in turn and in blocks. The second rebuild of the first
view comes behind a rebuild of the other in one run and not in the other run. -/
theorem isolated_run_blocks :
    let page : VirtualTree Unit := .node "page" .empty [.node "row" .empty []]
    let bar : VirtualTree Unit := .node "bar" .empty []
    let turns : List (Fin 2 × VirtualTree Unit) := [(0, bar), (1, bar), (0, page), (1, page)]
    let blocks : List (Fin 2 × VirtualTree Unit) := [(0, bar), (0, page), (1, bar), (1, page)]
    (∀ who, seen turns who = seen blocks who) ∧
      (run (turns.take 3)).look 0 = (run (blocks.take 2)).look 0 ∧
      (run (turns.take 3)).look 0 = lookAlone [bar, page] := by
  intro page bar turns blocks
  have hSame : ∀ who, seen turns who = seen blocks who := Fin.forall_fin_two.mpr ⟨rfl, rfl⟩
  have hRun := isolated_run turns blocks hSame 0 (turns.take 3) (blocks.take 2)
    (List.take_prefix 3 turns) (List.take_prefix 2 blocks) rfl
  exact ⟨hSame, hRun.1, hRun.2⟩

end Shared

end LiveMarkup.Live
