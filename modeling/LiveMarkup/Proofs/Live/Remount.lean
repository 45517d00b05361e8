import LiveMarkup.Proofs.Live.History
import LiveMarkup.Proofs.Live.Snapshot
import Mathlib.Data.List.Chain

/-!
# Patching and mounting afresh

A live tree that has been patched shows more than its last virtual tree in two
cases only: a value was set by an earlier tree and is not set any more, or the
handlers of a position have changed since its node was constructed. Where
neither happens, a snapshot does not tell a patched live tree from one that was
mounted afresh.

`VirtualTree.Repaints` is the condition on one tree and the next. Along a stretch
of a position it carries over from the first tree to the last, so the history of
a live node (`LiveMarkup.Proofs.Live.History`) comes down to the last tree.

## Main results

* `sorted_eq_of_get?` — properties with equal values show in the same order.
* `lines_congr` — live trees with the same shape and alike nodes have the same
  lines.
* `covers_of_mem_stretch` — the last tree of a stretch covers all of it.
* `snapshot_after` — **patching equals mounting afresh**.
-/

namespace LiveMarkup

variable {H : Type}

namespace Properties

/-! ## Properties that look alike -/

theorem mem_sorted {p : Properties H} {name : String} {value : Value H} :
    (name, value) ∈ p.sorted ↔ p.get? name = some value := by
  rw [p.sorted_perm.mem_iff, get?, lookUp_eq_some_iff p.distinct]

/-- Lists that ascend by name, no name twice, are told by their members. -/
theorem eq_of_ascending {α : Type} {name : α → String} {xs ys : List α}
    (hXs : xs.Pairwise fun a b => name a < name b) (hYs : ys.Pairwise fun a b => name a < name b)
    (h : ∀ a, a ∈ xs ↔ a ∈ ys) : xs = ys := by
  have hNodup {zs : List α} (hZs : zs.Pairwise fun a b => name a < name b) : zs.Nodup :=
    hZs.imp fun {a b} (hLt : name a < name b) (hEq : a = b) =>
      String.lt_irrefl (name b) (hEq ▸ hLt)
  have hPerm : xs.Perm ys := (List.perm_ext_iff_of_nodup (hNodup hXs) (hNodup hYs)).mpr h
  refine hPerm.eq_of_pairwise ?_ hXs hYs
  exact fun a b _ _ hAB hBA => absurd (String.lt_trans hAB hBA) (String.lt_irrefl _)

/-- **Properties with equal values under every name show in the same order**, in
whatever order they were set. -/
theorem sorted_eq_of_get? {p q : Properties H} (h : ∀ name, p.get? name = q.get? name) :
    p.sorted = q.sorted := by
  refine eq_of_ascending p.sorted_strict q.sorted_strict ?_
  rintro ⟨name, value⟩
  rw [mem_sorted, mem_sorted, h name]

/-- The names of handlers are listed the same way if they are the same names. -/
theorem names_handlers_eq {p q : Properties H}
    (h : ∀ name, name ∈ p.handlers.map Prod.fst ↔ name ∈ q.handlers.map Prod.fst) :
    p.handlers.map Prod.fst = q.handlers.map Prod.fst := by
  have hStrict (p : Properties H) : (p.handlers.map Prod.fst).Pairwise (· < ·) :=
    List.pairwise_map.mpr p.handlers_ascending
  exact eq_of_ascending (hStrict p) (hStrict q) h

/-- The values that are no handlers. -/
def plain? (p : Properties H) (name : String) : Option (Value H) :=
  (p.get? name).filter (!·.isHandler)

/-- The newer properties leave nothing of the older ones to be seen: they set all
the values that those set, and have handlers for the same events. -/
structure Covers (new old : Properties H) : Prop where
  values : ∀ name, (old.plain? name).isSome = true → (new.plain? name).isSome = true
  handlers : ∀ name, (∃ handler, old.get? name = some (.handler handler)) ↔
    ∃ handler, new.get? name = some (.handler handler)

theorem Covers.refl (p : Properties H) : p.Covers p where
  values := fun _ h => h
  handlers := fun _ => Iff.rfl

theorem Covers.trans {p q r : Properties H} (h : r.Covers q) (h' : q.Covers p) : r.Covers p where
  values := fun name hSome => h.values name (h'.values name hSome)
  handlers := fun name => (h'.handlers name).trans (h.handlers name)

/-- Handlers for the same events are listed under the same names. -/
theorem Covers.names {p q : Properties H} (h : q.Covers p) :
    p.handlers.map Prod.fst = q.handlers.map Prod.fst := by
  have hNames (p : Properties H) (name : String) : name ∈ p.handlers.map Prod.fst ↔
      ∃ handler, p.get? name = some (.handler handler) := by
    simp only [List.mem_map, Prod.exists, exists_and_right, exists_eq_right, mem_handlers]
  exact names_handlers_eq fun name => by rw [hNames, hNames, h.handlers name]

end Properties

/-- Wherever a pass from one tree to the next keeps a node, the next tree covers
what the node had from this one. -/
def VirtualTree.Repaints (old new : VirtualTree H) : Prop :=
  ∀ path before after, old.at? path = some before → new.at? path = some after →
    old.tagsTo path = new.tagsTo path → after.properties.Covers before.properties

namespace Live

/-! ## Live trees that look alike -/

namespace LiveTree

/-- Two live nodes whose lines in a snapshot say the same of them. -/
structure LooksLike (live live' : LiveTree H) : Prop where
  properties : ∀ name, live.properties.get? name = live'.properties.get? name
  handlers : live.handlers.map Prod.fst = live'.handlers.map Prod.fst

theorem line_congr {properties properties' : Properties H} {handlers handlers' : List (String × H)}
    {children children' : List Handle} (tag : String) (level : Nat)
    (hProperties : ∀ name, properties.get? name = properties'.get? name)
    (hHandlers : handlers.map Prod.fst = handlers'.map Prod.fst) :
    Node.line level ⟨tag, properties, handlers, children⟩ =
      Node.line level ⟨tag, properties', handlers', children'⟩ := by
  have hEvents (handlers : List (String × H)) :
      (handlers.map fun entry => " on:" ++ entry.1) =
        (handlers.map Prod.fst).map (" on:" ++ ·) := by
    rw [List.map_map]
    rfl
  rw [Node.line, Node.line, hEvents, hEvents, hHandlers, Properties.sorted_eq_of_get? hProperties]

mutual

/-- **Live trees with the same shape have the same lines** if their nodes look
alike at every position. -/
theorem lines_congr : (live live' : LiveTree H) → (level : Nat) → live.shape = live'.shape →
    (∀ path found found', live.at? path = some found → live'.at? path = some found' →
      found.LooksLike found') → live.lines level = live'.lines level
  | node _ tag properties handlers children, node _ tag' properties' handlers' children', level,
      hShape, hAlike => by
      rw [shape, shape, Shape.node.injEq] at hShape
      obtain ⟨rfl, hShapes⟩ := hShape
      have hRoot := hAlike [] _ _ rfl rfl
      have hLine : Node.line level ⟨tag, properties, handlers, []⟩ =
          Node.line level ⟨tag, properties', handlers', []⟩ :=
        line_congr tag level hRoot.properties hRoot.handlers
      rw [lines, lines, hLine,
        linesAll_congr children children' (level + 1) hShapes fun index path =>
          hAlike (index :: path)]

theorem linesAll_congr : (lives lives' : List (LiveTree H)) → (level : Nat) →
    shapeAll lives = shapeAll lives' →
    (∀ (index : Nat) path found found', lives[index]?.bind (at? path) = some found →
      lives'[index]?.bind (at? path) = some found' → found.LooksLike found') →
    linesAll level lives = linesAll level lives'
  | [], [], _, _, _ => rfl
  | [], _ :: _, _, hShapes, _ => by cases hShapes
  | _ :: _, [], _, hShapes, _ => by cases hShapes
  | live :: lives, live' :: lives', level, hShapes, hAlike => by
      rw [shapeAll, shapeAll, List.cons.injEq] at hShapes
      rw [linesAll, linesAll, lines_congr live live' level hShapes.1 (hAlike 0),
        linesAll_congr lives lives' level hShapes.2 fun index => hAlike (index + 1)]

end

end LiveTree

/-! ## The last tree of a stretch -/

theorem exists_stretch_concat (path : List Nat) (front : List (VirtualTree H))
    (last : VirtualTree H) : ∃ init, stretch path (front ++ [last]) = init ++ [last] := by
  rw [stretch, List.rtakeWhile_concat, if_pos (by simp)]
  exact ⟨_, rfl⟩

/-- **The last tree of a stretch covers all of it**, where every tree repaints
the one before. -/
theorem covers_of_mem_stretch {path : List Nat} (front : List (VirtualTree H))
    {last here : VirtualTree H} (hChain : (front ++ [last]).IsChain VirtualTree.Repaints)
    (hHere : last.at? path = some here) {tree before : VirtualTree H}
    (hMem : tree ∈ stretch path (front ++ [last])) (hBefore : tree.at? path = some before) :
    here.properties.Covers before.properties := by
  induction front using List.reverseRecOn generalizing last here with
  | nil =>
      rw [List.nil_append, stretch_singleton, List.mem_singleton] at hMem
      subst hMem
      rw [Option.some.inj (hHere.symm.trans hBefore)]
      exact .refl _
  | append_singleton front old ih =>
      by_cases hTags : old.tagsTo path = last.tagsTo path
      · rw [stretch_concat_of_eq hTags, List.mem_append, List.mem_singleton] at hMem
        rcases hMem with hMem | rfl
        · rw [List.append_assoc, List.singleton_append, List.isChain_append_cons_cons] at hChain
          have hSome : (old.at? path).isSome = true := by
            rw [← VirtualTree.isSome_tagsTo, hTags, VirtualTree.isSome_tagsTo, hHere]
            rfl
          obtain ⟨hereOld, hHereOld⟩ := Option.isSome_iff_exists.mp hSome
          have hStep := hChain.2.1 path hereOld here hHereOld hHere hTags
          exact hStep.trans (ih hChain.1 hHereOld hMem)
        · rw [Option.some.inj (hHere.symm.trans hBefore)]
          exact .refl _
      · rw [stretch_concat_of_ne hTags, List.mem_singleton] at hMem
        subst hMem
        rw [Option.some.inj (hHere.symm.trans hBefore)]
        exact .refl _

/-- What is latest at a position is what the last tree sets there. -/
theorem latest_stretch {path : List Nat} (front : List (VirtualTree H))
    {last here : VirtualTree H} (hChain : (front ++ [last]).IsChain VirtualTree.Repaints)
    (hHere : last.at? path = some here) (key : String) :
    latest path key (stretch path (front ++ [last])) = here.properties.plain? key := by
  have hLast : written path key last = here.properties.plain? key := written_eq hHere key
  obtain ⟨init, hInit⟩ := exists_stretch_concat path front last
  rw [hInit, latest_append, hLast]
  cases hPlain : here.properties.plain? key with
  | some value => rfl
  | none =>
      -- What an earlier tree set would be set by the last one.
      rw [Option.none_or, latest, List.findSome?_eq_none_iff]
      intro tree hMem
      have hStretch : tree ∈ stretch path (front ++ [last]) := by
        rw [hInit]
        exact List.mem_append_left _ (List.mem_reverse.mp hMem)
      cases hAt : tree.at? path with
      | none => rw [written, hAt]; rfl
      | some before =>
          have hCovers := covers_of_mem_stretch front hChain hHere hStretch hAt
          rw [written_eq hAt]
          refine Option.not_isSome_iff_eq_none.mp fun hSome => ?_
          have hValue := hCovers.values key hSome
          rw [hPlain] at hValue
          cases hValue

theorem LiveTree.exists_at?_of_shape (path : List Nat) (live : LiveTree H) (tree : VirtualTree H)
    (hShape : live.shape = tree.shape) {found : LiveTree H} (hFound : live.at? path = some found) :
    ∃ here, tree.at? path = some here := by
  induction path generalizing live tree with
  | nil => exact ⟨tree, rfl⟩
  | cons index path ih =>
      rw [at?] at hFound
      cases hChild : tree.children[index]? with
      | none =>
          rw [no_child_of_shape hShape hChild] at hFound
          cases hFound
      | some child =>
          obtain ⟨below, hBelow, hShapeBelow⟩ := exists_child_of_shape hShape hChild
          rw [hBelow] at hFound
          rw [VirtualTree.at?, hChild]
          exact ih below child hShapeBelow hFound

namespace Host

/-- A live node looks as the last tree asks for. -/
theorem Tracks.looks {arena : Arena H} {front : List (VirtualTree H)} {last here : VirtualTree H}
    {path : List Nat} {found : LiveTree H} (h : Tracks arena (front ++ [last]) path found)
    (hChain : (front ++ [last]).IsChain VirtualTree.Repaints) (hHere : last.at? path = some here) :
    (∀ name, found.properties.get? name = here.properties.plain? name) ∧
      found.handlers.map Prod.fst = here.properties.handlers.map Prod.fst := by
  refine ⟨fun name => (h.properties name).trans (latest_stretch front hChain hHere name), ?_⟩
  obtain ⟨first, hFirst, hHandlers⟩ := h.handlers
  obtain ⟨tree, hHead, hAt⟩ := Option.bind_eq_some_iff.mp hFirst
  rw [hHandlers]
  exact (covers_of_mem_stretch front hChain hHere (List.mem_of_head? hHead) hAt).names

/-- The snapshot of the live root. -/
def snapshot (host : Host H) : Option String :=
  host.binding.retained.root.map host.arena.snapshot

theorem snapshot_of_mounted {host : Host H} {live : LiveTree H} {tree : VirtualTree H}
    (h : host.binding.retained.Mounted host.arena live tree) :
    host.snapshot = some (String.join (live.lines 0)) := by
  rw [snapshot, h.root, Option.map_some, snapshot_of_holds h.holds h.nodup]

/-- **Patching equals mounting afresh.** Where every tree repaints the one before,
the snapshot of the live root after the last rebuild is the one that the last
tree has when it is mounted in an arena of its own. -/
theorem snapshot_after (arena : Arena H) (front : List (VirtualTree H)) (last : VirtualTree H)
    (hChain : (front ++ [last]).IsChain VirtualTree.Repaints) :
    ∃ text, (after arena (front ++ [last])).snapshot = some text ∧
      (after .empty [last]).snapshot = some text := by
  obtain ⟨live, hMounted, hTracked⟩ := exists_tracked arena front last
  obtain ⟨live', hMounted', hTracked'⟩ := exists_tracked .empty [] last
  have hShape : live.shape = live'.shape := hMounted.shape.trans hMounted'.shape.symm
  have hAlike : ∀ path found found', live.at? path = some found → live'.at? path = some found' →
      found.LooksLike found' := by
    intro path found found' hFound hFound'
    obtain ⟨here, hHere⟩ := LiveTree.exists_at?_of_shape path live last hMounted.shape hFound
    obtain ⟨found, hAt, hTracks⟩ := hTracked path here hHere
    obtain ⟨found', hAt', hTracks'⟩ := hTracked' path here hHere
    obtain rfl := Option.some.inj (hFound.symm.trans hAt)
    obtain rfl := Option.some.inj (hFound'.symm.trans hAt')
    obtain ⟨hProperties, hHandlers⟩ := hTracks.looks hChain hHere
    obtain ⟨hProperties', hHandlers'⟩ := hTracks'.looks (.singleton last) hHere
    exact ⟨fun name => (hProperties name).trans (hProperties' name).symm,
      hHandlers.trans hHandlers'.symm⟩
  refine ⟨_, snapshot_of_mounted hMounted, ?_⟩
  rw [LiveTree.lines_congr live live' 0 hShape hAlike]
  exact snapshot_of_mounted hMounted'

/-- A row is relabelled and gets a hint; its events stay, with another handler. The
patched row looks like a row that was mounted with label and hint. -/
theorem snapshot_after_relabelled :
    let plain : VirtualTree Nat := .node "list" .empty
      [.node "row" (.ofList [("click", .handler 1), ("label", .text "one")]) []]
    let hinted : VirtualTree Nat := .node "list" .empty
      [.node "row" (.ofList [("click", .handler 2), ("hint", .text "new"), ("label", .text "two")])
        []]
    [plain, hinted].IsChain VirtualTree.Repaints ∧
      ∃ text, (after .empty [plain, hinted]).snapshot = some text ∧
        (after .empty [hinted]).snapshot = some text := by
  intro plain hinted
  have hRow : Properties.Covers (.ofList
      [("click", .handler 2), ("hint", .text "new"), ("label", .text "two")] : Properties Nat)
      (.ofList [("click", .handler 1), ("label", .text "one")]) := by
    have hOld (name : String) : (Properties.ofList
        [("click", .handler 1), ("label", .text "one")] : Properties Nat).get? name =
          if "click" = name then some (.handler 1) else
          if "label" = name then some (.text "one") else none := rfl
    have hNew (name : String) : (Properties.ofList
        [("click", .handler 2), ("hint", .text "new"), ("label", .text "two")] :
          Properties Nat).get? name =
          if "click" = name then some (.handler 2) else
          if "hint" = name then some (.text "new") else
          if "label" = name then some (.text "two") else none := rfl
    constructor <;> intro name <;> simp only [Properties.plain?, hOld, hNew] <;> split_ifs <;>
      simp [Value.isHandler]
  have hChain : [plain, hinted].IsChain VirtualTree.Repaints := by
    refine List.isChain_pair.mpr ?_
    rintro (_ | ⟨_ | index, _ | ⟨below, path⟩⟩) before now hBefore hNow hTags
    · cases hBefore
      cases hNow
      exact .refl .empty
    · cases hBefore
      cases hNow
      exact hRow
    · cases hBefore
    · cases hBefore
    · cases hBefore
  exact ⟨hChain, snapshot_after .empty [plain] hinted hChain⟩

end Host

end Live

end LiveMarkup
