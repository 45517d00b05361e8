import LiveMarkup.Proofs.Live.Remount
import LiveMarkup.Proofs.Live.Sharing

/-!
# A view that has an arena for itself

What the history of live nodes (`LiveMarkup.Proofs.Live.History`) comes down to
for a view that shares its arena with nobody, and whose trees are alike: a
position that all of them have keeps the node of the first one, the snapshot is
that of the last tree, and the arena holds as many nodes as the last tree.

## Main results

* `exists_kept` — **a position that all trees have keeps its node**, and the node
  the handlers of the first tree.
* `property?_after` — a node shows what the last tree sets.
* `snapshot_eq_lines` — the snapshot is read off the last tree.
* `lines_mount` — the lines of a live tree that has just been mounted.
* `size_after` — **the arena holds the last tree and nothing else**.
-/

namespace LiveMarkup.Live

variable {H : Type}

namespace Host

/-! ## Positions that all trees have -/

/-- A position that all trees have with the same tags has all of them as its
stretch. -/
theorem stretch_eq_self {path : List Nat} {trees : List (VirtualTree H)} {tags : List String}
    (h : ∀ tree ∈ trees, tree.tagsTo path = some tags) : stretch path trees = trees := by
  rw [stretch, List.rtakeWhile_eq_self_iff]
  intro tree hMem
  have hLast : trees.getLast?.bind (VirtualTree.tagsTo path) = some tags := by
    have hSome : trees.getLast?.isSome = true :=
      List.getLast?_isSome.mpr (List.ne_nil_of_mem hMem)
    obtain ⟨last, hLast⟩ := Option.isSome_iff_exists.mp hSome
    rw [hLast, Option.bind_some]
    exact h last (List.mem_of_getLast? hLast)
  rw [h tree hMem, hLast]
  simp

/-- What an event runs at a node is known from the record of its position. -/
theorem Tracks.fired {arena : Arena H} {trees : List (VirtualTree H)} {path : List Nat}
    {found : LiveTree H} {first : VirtualTree H} (h : Tracks arena trees path found)
    (hFirst : (stretch path trees).head?.bind (VirtualTree.at? path) = some first)
    (hNode : (after arena trees).arena.node? found.root = some found.held) (event : String) :
    (after arena trees).arena.fired found.root event =
      ((first.properties.get? event).bind Value.asHandler?).toList := by
  obtain ⟨other, hOther, hHandlers⟩ := h.handlers
  obtain rfl : first = other := Option.some.inj (hFirst.symm.trans hOther)
  have hHeld : found.held.handlers = first.properties.handlers := hHandlers
  rw [Arena.fired, hNode]
  simp only [hHeld]
  exact first.properties.filter_handlers event

/-- **A position that all trees have keeps its node**: the one that was there when
the first tree had been mounted. An event at it runs the handler of that tree. -/
theorem exists_kept (arena : Arena H) (first : VirtualTree H) (later : List (VirtualTree H))
    {path : List Nat} {here : VirtualTree H} (hHere : first.at? path = some here)
    (hTags : ∀ tree ∈ later, tree.tagsTo path = first.tagsTo path) :
    ∃ id, (after arena [first]).at? path = some id ∧
      (after arena (first :: later)).at? path = some id ∧
      ∀ event, (after arena (first :: later)).arena.fired id event =
        ((here.properties.get? event).bind Value.asHandler?).toList := by
  obtain ⟨tags, hFirstTags⟩ : ∃ tags, first.tagsTo path = some tags := by
    rw [← Option.isSome_iff_exists, VirtualTree.isSome_tagsTo, hHere]
    rfl
  have hAll : ∀ tree ∈ first :: later, tree.tagsTo path = some tags := by
    intro tree hMem
    rcases List.mem_cons.mp hMem with rfl | hMem
    · exact hFirstTags
    · rw [hTags tree hMem, hFirstTags]
  have hStretch := stretch_eq_self hAll
  obtain ⟨front, last, hSplit⟩ : ∃ front last, first :: later = front ++ [last] :=
    ⟨_, _, (List.dropLast_append_getLast (List.cons_ne_nil first later)).symm⟩
  have hLast : last ∈ first :: later := by
    rw [hSplit]
    exact List.mem_append_right front List.mem_cons_self
  obtain ⟨lastHere, hLastHere⟩ : ∃ lastHere, last.at? path = some lastHere := by
    rw [← Option.isSome_iff_exists, ← VirtualTree.isSome_tagsTo, hAll last hLast]
    rfl
  obtain ⟨live, hMounted, hTracked⟩ := exists_tracked arena front last
  obtain ⟨found, hFound, hTracks⟩ := hTracked path lastHere hLastHere
  rw [← hSplit] at hMounted hTracks
  have hBefore : passesBefore path (first :: later) = 0 := by
    rw [passesBefore, hStretch, Nat.sub_self]
  refine ⟨found.root, ?_, at?_of_mounted hMounted hFound, ?_⟩
  · have hStands := hTracks.stands 1 (by omega) (by simp)
    exact hStands
  · have hNode := (Arena.at?_of_holds path hMounted.holds hFound).2
    intro event
    refine hTracks.fired ?_ hNode event
    rw [hStretch]
    exact hHere

/-! ## What is to be seen -/

/-- A node shows what the last tree sets at its position, where every tree repaints
the one before. -/
theorem property?_after (arena : Arena H) (front : List (VirtualTree H))
    {last here : VirtualTree H} {path : List Nat} {id : Handle}
    (hChain : (front ++ [last]).IsChain VirtualTree.Repaints) (hHere : last.at? path = some here)
    (hId : (after arena (front ++ [last])).at? path = some id) (name : String) :
    (after arena (front ++ [last])).arena.property? id name = here.properties.plain? name := by
  obtain ⟨live, hMounted, hTracked⟩ := exists_tracked arena front last
  obtain ⟨found, hFound, hTracks⟩ := hTracked path here hHere
  have hRoot := at?_of_mounted hMounted hFound
  obtain rfl : found.root = id := Option.some.inj (hRoot.symm.trans hId)
  have hNode := (Arena.at?_of_holds path hMounted.holds hFound).2
  rw [Arena.property?, hNode]
  exact (hTracks.looks hChain hHere).1 name

/-- **The snapshot is read off the last tree**, where every tree repaints the one
before. -/
theorem snapshot_eq_lines (arena : Arena H) (front : List (VirtualTree H))
    (last : VirtualTree H) (hChain : (front ++ [last]).IsChain VirtualTree.Repaints) :
    (after arena (front ++ [last])).snapshot =
      some (String.join ((LiveTree.mount 0 last).lines 0)) := by
  obtain ⟨live, hMounted, hTracked⟩ := exists_tracked arena front last
  have hShape : live.shape = (LiveTree.mount 0 last).shape :=
    hMounted.shape.trans (LiveTree.shape_mount last 0).symm
  have hAlike : ∀ path found found', live.at? path = some found →
      (LiveTree.mount 0 last).at? path = some found' → found.LooksLike found' := by
    intro path found found' hFound hFound'
    obtain ⟨here, hHere⟩ := LiveTree.exists_at?_of_shape path live last hMounted.shape hFound
    obtain ⟨other, hOther, hTracks⟩ := hTracked path here hHere
    obtain rfl := Option.some.inj (hFound.symm.trans hOther)
    obtain ⟨start, -, -, hMount⟩ := LiveTree.at?_mount path last 0 hHere
    obtain rfl := Option.some.inj (hFound'.symm.trans hMount)
    obtain ⟨hProperties, hHandlers⟩ := hTracks.looks hChain hHere
    cases here with
    | node tag properties children =>
        refine ⟨fun name => (hProperties name).trans ?_, hHandlers⟩
        have hOverlay := Properties.get?_overlay .empty properties name
        rw [Properties.get?_empty, Option.or_none] at hOverlay
        exact hOverlay.symm
  rw [snapshot_of_mounted hMounted, LiveTree.lines_congr live _ 0 hShape hAlike]

/-! ## What is there -/

/-- A view that has an arena for itself is one that shares it with no other. -/
theorem shared_after (trees : List (VirtualTree H)) :
    (Shared.run (trees.map fun tree => ((0 : Fin 1), tree))).arena = (after .empty trees).arena ∧
      (Shared.run (trees.map fun tree => ((0 : Fin 1), tree))).bindings 0 =
        (after .empty trees).binding := by
  induction trees using List.reverseRecOn with
  | nil => exact ⟨rfl, rfl⟩
  | append_singleton front last ih =>
      rw [List.map_append, List.map_singleton, Shared.run_append, after_concat,
        Shared.bindings_rebuild_self, Shared.rebuild, ih.1, ih.2]
      exact ⟨rfl, rfl⟩

/-- **The arena holds the last tree and nothing else.** -/
theorem size_after (front : List (VirtualTree H)) (last : VirtualTree H) :
    (after .empty (front ++ [last])).arena.size = last.count := by
  obtain ⟨hArena, hBinding⟩ := shared_after (front ++ [last])
  obtain ⟨views, hDisplays⟩ :=
    Shared.exists_displays_run ((front ++ [last]).map fun tree => ((0 : Fin 1), tree))
  have hSize := hDisplays.size_eq
  have hPrevious : (after .empty (front ++ [last])).binding.retained.previous = some last := by
    rw [after_concat]
    exact Retained.previous_rebuild _ _ last
  rw [Fin.sum_univ_one, hArena, hBinding, hPrevious] at hSize
  exact hSize

end Host

end LiveMarkup.Live

namespace LiveMarkup

variable {H : Type}

/-! ## Live trees that have just been mounted -/

/-- A node that has just been constructed has the values that are no handlers. -/
theorem Properties.sorted_overlay_empty (p : Properties H) :
    (empty.overlay p).sorted = p.sorted.filter (!·.2.isHandler) := by
  refine eq_of_ascending (empty.overlay p).sorted_strict (p.sorted_strict.filter _) ?_
  rintro ⟨name, value⟩
  rw [mem_sorted, get?_overlay, get?_empty, Option.or_none, Option.filter_eq_some_iff,
    List.mem_filter, mem_sorted]

/-- **The lines of a live tree that has just been mounted** say what its virtual tree
has. -/
theorem Live.LiveTree.lines_mount (next level : Nat) (tag : String) (properties : Properties H)
    (children : List (VirtualTree H)) :
    (mount next (.node tag properties children)).lines level =
      (String.join (List.replicate level "  ") ++ tag
        ++ String.join ((properties.sorted.filter (!·.2.isHandler)).map
          fun (name, value) => " " ++ name ++ "=" ++ value.debug)
        ++ String.join (properties.handlers.map fun (event, _) => " on:" ++ event)
        ++ "\n") :: linesAll (level + 1) (mountAll (next + 1) children) := by
  rw [mount, lines, Node.line, Properties.sorted_overlay_empty]

end LiveMarkup
