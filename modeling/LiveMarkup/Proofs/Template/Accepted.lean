import LiveMarkup.Proofs.Markup.TakenPiece
import LiveMarkup.Proofs.Template.Heads

/-!
# What is taken for the head of a loop

A text is taken for the head of a loop if it is written as one. One other sort of text
is taken: where the expression should stand there is nothing but white space, of which
a character is left over once the word has its blank. The last such character that ends
no line is then read for the expression. So an expression is either as it should be,
with something to see in it and no white space around it, or a single blank.

## Main definitions

* `BareText` — a text that is taken for a head although it has no expression.

## Main results

* `collection?_eq_some_iff` — what is read behind the word, and from which texts.
* `read?_eq_some_iff` — **a text is taken for a head iff it is one, with a trimmed
  expression, or a bare one, with a blank for its expression**.
-/

namespace LiveMarkup.Template.Loop

open Text (isBlank trimEnd trimStart)
open Markup (IsBlank Trimmed)
open Markup.Reader (EndsHere)

/-- A text that is taken for the head of a loop although it has no expression: behind the
word there is nothing but white space. The first character of it ends the word; of the
others, the last one that is no line feed is taken for the expression. -/
inductive BareText : List Char → List Char → List Char → Prop where
  | mk {before item gap word space feeds : List Char} {first left : Char}
      (hBefore : IsBlank before) (hItem : Unbroken item)
      (hName : (Code.identifier? (String.ofList item)).isSome = true)
      (hGap : IsBlank gap) (hGapSome : gap ≠ []) (hWord : word = ['o', 'f'] ∨ word = ['i', 'n'])
      (hFirst : isBlank first = true) (hSpace : IsBlank space) (hLeft : isBlank left = true)
      (hLine : left ≠ '\n') (hFeeds : ∀ c ∈ feeds, c = '\n') :
      BareText (before ++ (item ++ (gap ++ (word ++ (first :: (space ++ left :: feeds)))))) item
        [left]

/-! ## Behind the word -/

theorem behindWord_eq_some_iff {s rest : List Char} :
    behindWord s = some rest ↔
      ∃ word, (word = ['o', 'f'] ∨ word = ['i', 'n']) ∧ s = word ++ rest := by
  constructor
  · intro h
    unfold behindWord at h
    split at h
    · cases h
      exact ⟨['o', 'f'], .inl rfl, rfl⟩
    · cases h
      exact ⟨['i', 'n'], .inr rfl, rfl⟩
    · cases h
  · rintro ⟨word, hWord, rfl⟩
    exact behindWord_append hWord rest

/-- The last character of a text that is no line feed has nothing but line feeds behind
it. -/
theorem find?_reverse_eq_some_iff {s : List Char} {c : Char} :
    s.reverse.find? (· != '\n') = some c ↔
      c ≠ '\n' ∧ ∃ front feeds, s = front ++ c :: feeds ∧ ∀ other ∈ feeds, other = '\n' := by
  rw [List.find?_eq_some_iff_append, bne_iff_ne]
  refine and_congr_right fun _ => ⟨?_, ?_⟩
  · rintro ⟨behind, front, hEq, hFeeds⟩
    refine ⟨front.reverse, behind.reverse, ?_, ?_⟩
    · rw [← List.reverse_reverse s, hEq]
      simp
    · intro other hMem
      simpa using hFeeds other (List.mem_reverse.mp hMem)
  · rintro ⟨front, feeds, rfl, hFeeds⟩
    refine ⟨feeds.reverse, front.reverse, by simp, ?_⟩
    intro other hMem
    simpa using hFeeds other (List.mem_reverse.mp hMem)

theorem isBlank_feeds {feeds : List Char} (h : ∀ c ∈ feeds, c = '\n') : IsBlank feeds := by
  intro c hMem
  rw [h c hMem]
  decide

/-- Where there is nothing but white space it is looked through from the end. -/
theorem collection?_of_blank {s : List Char} (h : IsBlank s) :
    collection? s = ((s.drop 1).reverse.find? (· != '\n')).map fun c => [c] := by
  have hAll : s.all isBlank = true := List.all_eq_true.mpr h
  have hRun : s.takeWhile isBlank = s := List.takeWhile_eq_self_iff.mpr h
  rw [collection?, hRun, trimEnd_dropWhile_eq_nil_iff.mpr hAll]
  cases s with
  | nil => rfl
  | cons c s => rfl

/-- What is left between the white space at both ends has none at its own. -/
theorem trimmed_core {s : List Char} (hSome : trimEnd (s.dropWhile isBlank) ≠ []) :
    Trimmed (trimEnd (s.dropWhile isBlank)) := by
  obtain ⟨behind, hInner, -⟩ := Markup.trimEnd_append (s.dropWhile isBlank)
  refine ⟨fun c hMem => ?_, fun c hMem => Text.getLast_trimEnd hMem⟩
  have hHead : (s.dropWhile isBlank).head? = some c := by
    rw [← hInner, List.head?_append_of_ne_nil _ hSome]
    exact hMem
  exact Text.head_dropWhile hHead

/-- Where there is more, it is what is left between the white space at both ends. -/
theorem collection?_eq_some_of_not_blank {s collection : List Char} (hCore : ¬ IsBlank s)
    (h : collection? s = some collection) :
    s.takeWhile isBlank ≠ [] ∧ trimEnd (s.dropWhile isBlank) = collection ∧ collection ≠ [] ∧
      '\n' ∉ collection := by
  have hSome : trimEnd (s.dropWhile isBlank) ≠ [] := fun hNil =>
    hCore (List.all_eq_true.mp (trimEnd_dropWhile_eq_nil_iff.mp hNil))
  simp only [collection?, List.isEmpty_iff] at h
  split at h
  · cases h
  · rename_i hRun
    split at h
    · cases h
    · rename_i hLine
      cases h
      exact ⟨hRun, rfl, hSome, hLine⟩

/-- Behind the word stands an expression on one line with white space around it, or
nothing but white space, with a character to spare. -/
theorem collection?_eq_some_iff {s collection : List Char} :
    collection? s = some collection ↔
      (∃ space behind, s = space ++ (collection ++ behind) ∧ IsBlank space ∧ space ≠ [] ∧
        collection ≠ [] ∧ Trimmed collection ∧ '\n' ∉ collection ∧ IsBlank behind) ∨
      ∃ first space left feeds, s = first :: (space ++ left :: feeds) ∧ isBlank first = true ∧
        IsBlank space ∧ isBlank left = true ∧ left ≠ '\n' ∧ (∀ c ∈ feeds, c = '\n') ∧
        collection = [left] := by
  constructor
  · intro h
    by_cases hBlank : IsBlank s
    · right
      rw [collection?_of_blank hBlank, Option.map_eq_some_iff] at h
      obtain ⟨left, hFound, rfl⟩ := h
      obtain ⟨hLine, space, feeds, hBehind, hFeeds⟩ := find?_reverse_eq_some_iff.mp hFound
      cases s with
      | nil => simp at hBehind
      | cons first s =>
          rw [List.drop_succ_cons, List.drop_zero] at hBehind
          subst hBehind
          simp only [IsBlank, List.mem_cons, List.mem_append] at hBlank
          exact ⟨first, space, left, feeds, rfl, hBlank first (.inl rfl),
            fun c hMem => hBlank c (.inr (.inl hMem)), hBlank left (.inr (.inr (.inl rfl))), hLine,
            hFeeds, rfl⟩
    · left
      obtain ⟨hRun, rfl, hSome, hLine⟩ := collection?_eq_some_of_not_blank hBlank h
      obtain ⟨behind, hInner, hBehind⟩ := Markup.trimEnd_append (s.dropWhile isBlank)
      refine ⟨s.takeWhile isBlank, behind, ?_, List.all_eq_true.mp List.all_takeWhile, hRun, hSome,
        trimmed_core hSome, hLine, hBehind⟩
      rw [hInner, List.takeWhile_append_dropWhile]
  · rintro (⟨space, behind, rfl, hSpace, hSpaceSome, hSome, hTrimmed, hLine, hBehind⟩ |
      ⟨first, space, left, feeds, rfl, hFirst, hSpace, hLeft, hLine, hFeeds, rfl⟩)
    · exact collection?_append hSpace hSpaceSome hSome hTrimmed hLine hBehind
    · have hBlank : IsBlank (first :: (space ++ left :: feeds)) := by
        intro c hMem
        simp only [List.mem_cons, List.mem_append] at hMem
        rcases hMem with rfl | hMem | rfl | hMem
        · exact hFirst
        · exact hSpace c hMem
        · exact hLeft
        · exact isBlank_feeds hFeeds c hMem
      rw [collection?_of_blank hBlank, List.drop_succ_cons, List.drop_zero,
        find?_reverse_eq_some_iff.mpr ⟨hLine, space, feeds, rfl, hFeeds⟩]
      rfl

/-! ## Whole texts -/

/-- A text is split into an item and an expression iff it is an item and a word, with
white space around the item, and the expression is read behind them. -/
theorem split?_eq_some_iff {text item collection : List Char} :
    split? text = some (item, collection) ↔
      ∃ before gap word rest, text = before ++ (item ++ (gap ++ (word ++ rest))) ∧
        IsBlank before ∧ Unbroken item ∧ item ≠ [] ∧ IsBlank gap ∧ gap ≠ [] ∧
        (word = ['o', 'f'] ∨ word = ['i', 'n']) ∧ collection? rest = some collection := by
  constructor
  · intro h
    have hBefore : IsBlank (text.takeWhile isBlank) := List.all_eq_true.mp List.all_takeWhile
    have hText := (List.takeWhile_append_dropWhile (p := isBlank) (l := text)).symm
    simp only [split?, List.isEmpty_iff] at h
    generalize text.dropWhile isBlank = s at h hText
    have hItem : Unbroken (s.takeWhile fun c => !isBlank c) :=
      all_not_isBlank_iff.mp List.all_takeWhile
    have hParts := List.takeWhile_append_dropWhile (p := fun c => !isBlank c) (l := s)
    have hEnds : EndsHere (fun c => !isBlank c) (s.dropWhile fun c => !isBlank c) :=
      fun c hHead => Text.head_dropWhile hHead
    have hRest : ((s.takeWhile fun c => !isBlank c) ++ s.dropWhile fun c => !isBlank c).drop
        (s.takeWhile fun c => !isBlank c).length = s.dropWhile fun c => !isBlank c := List.drop_left
    rw [hParts] at hRest
    rw [hRest] at h
    split at h
    · cases h
    · rename_i hItemSome
      simp only [Option.bind_eq_bind, Option.bind_eq_some_iff] at h
      obtain ⟨rest, hBehind, found, hRead, hFound⟩ := h
      obtain ⟨word, hWord, hAfter⟩ := behindWord_eq_some_iff.mp hBehind
      cases hFound
      generalize hTail : (s.dropWhile fun c => !isBlank c) = tail at *
      have hGapSome : tail.takeWhile isBlank ≠ [] := by
        cases tail with
        | nil => cases hBehind
        | cons c tail =>
            have hBlank : isBlank c = true := by simpa using hEnds c rfl
            rw [List.takeWhile_cons_of_pos hBlank]
            exact List.cons_ne_nil _ _
      refine ⟨text.takeWhile isBlank, tail.takeWhile isBlank, word, rest, ?_, hBefore, hItem,
        hItemSome, List.all_eq_true.mp List.all_takeWhile, hGapSome, hWord, hRead⟩
      rw [← hAfter, List.takeWhile_append_dropWhile, hParts]
      exact hText
  · rintro ⟨before, gap, word, rest, rfl, hBefore, hItem, hItemSome, hGap, hGapSome, hWord, hRead⟩
    exact split?_append hBefore hItem hItemSome hGap hGapSome hWord hRead

theorem BareText.isSome_identifier? {text item collection : List Char}
    (h : BareText text item collection) :
    (Code.identifier? (String.ofList item)).isSome = true := by
  cases h
  assumption

/-- A bare head is split like any other. -/
theorem BareText.split?_eq {text item collection : List Char} (h : BareText text item collection) :
    split? text = some (item, collection) := by
  have hName := h.isSome_identifier?
  cases h with
  | mk hBefore hItem _ hGap hGapSome hWord hFirst hSpace hLeft hLine hFeeds =>
      have hItemSome : item ≠ [] := by
        rintro rfl
        cases hName
      refine split?_append hBefore hItem hItemSome hGap hGapSome hWord ?_
      exact collection?_eq_some_iff.mpr
        (.inr ⟨_, _, _, _, rfl, hFirst, hSpace, hLeft, hLine, hFeeds, rfl⟩)

/-- A loop is read iff the text is split into its two parts and the item is an
identifier. -/
theorem read?_eq_some_iff_split? {value : String} {loop : Loop} :
    Loop.read? value = some loop ↔
      split? value.toList = some (loop.item.toList, loop.collection.toList) ∧
        (Code.identifier? loop.item).isSome = true := by
  simp only [read?, Option.bind_eq_bind, Option.bind_eq_some_iff, Option.isSome_iff_exists]
  constructor
  · rintro ⟨⟨item, collection⟩, hSplit, name, hName, hLoop⟩
    cases hLoop
    exact ⟨by simpa using hSplit, name, hName⟩
  · rintro ⟨hSplit, name, hName⟩
    exact ⟨_, hSplit, name, by simpa using hName, by simp⟩

/-- **What is taken for the head of a loop.** A text is taken iff it is written as one,
or as a bare one. In the first case the expression has something to see in it and no
white space around it; in the other it is white space. So a text with nothing but white
space behind the word is taken whenever there is enough of it, for a loop over nothing
to see, and only such a text gives an expression that is not as it should be. -/
theorem read?_eq_some_iff (value : String) (loop : Loop) :
    Loop.read? value = some loop ↔
      (HeadText value.toList loop.item.toList loop.collection.toList ∧
        Trimmed loop.collection.toList ∧ ∃ c ∈ loop.collection.toList, isBlank c = false) ∨
      (BareText value.toList loop.item.toList loop.collection.toList ∧
        IsBlank loop.collection.toList) := by
  rw [read?_eq_some_iff_split?]
  constructor
  · rintro ⟨hSplit, hName⟩
    rw [← String.ofList_toList (s := loop.item)] at hName
    generalize loop.item.toList = item at hSplit hName ⊢
    generalize loop.collection.toList = collection at hSplit ⊢
    obtain ⟨before, gap, word, rest, hText, hBefore, hItem, hItemSome, hGap, hGapSome, hWord,
      hRead⟩ := split?_eq_some_iff.mp hSplit
    rw [hText]
    rcases collection?_eq_some_iff.mp hRead with ⟨space, behind, rfl, hSpace, hSpaceSome, hSome,
      hTrimmed, hLine, hBehind⟩ | ⟨first, space, left, feeds, rfl, hFirst, hSpace, hLeft, hLine,
      hFeeds, rfl⟩
    · left
      refine ⟨.mk hBefore hItem hName hGap hGapSome hWord hSpace hSpaceSome hSome hTrimmed hLine
        hBehind, hTrimmed, ?_⟩
      obtain ⟨c, tail, rfl⟩ := List.exists_cons_of_ne_nil hSome
      exact ⟨c, List.mem_cons_self, hTrimmed.1 c rfl⟩
    · right
      refine ⟨.mk hBefore hItem hName hGap hGapSome hWord hFirst hSpace hLeft hLine hFeeds, ?_⟩
      intro c hMem
      rw [List.mem_singleton.mp hMem]
      exact hLeft
  · rintro (⟨hHead, -, -⟩ | ⟨hBare, -⟩)
    · have hName := hHead.isSome_identifier?
      rw [String.ofList_toList] at hName
      exact ⟨hHead.split?_eq, hName⟩
    · have hName := hBare.isSome_identifier?
      rw [String.ofList_toList] at hName
      exact ⟨hBare.split?_eq, hName⟩

/-- Two blanks behind the word are a head without an expression, and it is taken: for a
loop over the second blank. One blank is not enough, and neither is a line feed behind
it. -/
theorem read?_bare :
    read? "x of  " = some ⟨"x", " "⟩ ∧ (∀ c ∈ " ".toList, isBlank c = true) ∧
      BareText "x of  ".toList ['x'] [' '] ∧ read? "x of " = none ∧ read? "x of \n" = none := by
  refine ⟨by decide, List.all_eq_true.mp (by decide), ?_, by decide, by decide⟩
  exact @BareText.mk [] ['x'] [' '] ['o', 'f'] [] [] ' ' ' ' (by decide) (by decide) (by decide)
    (by decide) (by decide) (.inl rfl) (by decide) (by decide) (by decide) (by decide) (by simp)

end LiveMarkup.Template.Loop
