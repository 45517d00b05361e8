import LiveMarkup.Proofs.Markup.Piece
import LiveMarkup.Proofs.Template.Backtracking

/-!
# Heads of loops as they are written

A head is an identifier, one of the two words and an expression. White space has to
stand on both sides of the word and may stand around the whole, lines and all; the
expression has to stand on one line, and what it holds does not matter, be it the words
themselves.

## Main definitions

* `Unbroken` — a text without white space in it.
* `HeadText` — a text that is written as the head of a loop, with its two parts.

## Main results

* `HeadText.split?_eq` — a head is split as it is written.
* `read?_of_headText` — **every head of a loop is read**.
-/

namespace LiveMarkup.Template.Loop

open Text (isBlank trimEnd)
open Markup (IsBlank Trimmed)
open Markup.Reader (EndsHere endsHere_cons dropWhile_append takeWhile_append)

/-- A text without white space in it. -/
def Unbroken (text : List Char) : Prop :=
  ∀ c ∈ text, isBlank c = false

theorem all_not_isBlank_iff {text : List Char} :
    (text.all fun c => !isBlank c) = true ↔ Unbroken text := by
  simp only [List.all_eq_true, Bool.not_eq_true', Unbroken]

instance (text : List Char) : Decidable (Unbroken text) :=
  decidable_of_iff _ all_not_isBlank_iff

/-- A head of a loop: an identifier and an expression, one of the two words between
them, and white space around them. No line ends in the expression, and it has no white
space around it that belongs to it. -/
inductive HeadText : List Char → List Char → List Char → Prop where
  | mk {before item gap word space collection behind : List Char} (hBefore : IsBlank before)
      (hItem : Unbroken item)
      (hName : (Code.identifier? (String.ofList item)).isSome = true)
      (hGap : IsBlank gap) (hGapSome : gap ≠ []) (hWord : word = ['o', 'f'] ∨ word = ['i', 'n'])
      (hSpace : IsBlank space) (hSpaceSome : space ≠ []) (hSome : collection ≠ [])
      (hTrimmed : Trimmed collection) (hLine : '\n' ∉ collection) (hBehind : IsBlank behind) :
      HeadText (before ++ (item ++ (gap ++ (word ++ (space ++ (collection ++ behind))))))
        item collection

theorem endsHere_of_ne_nil {p : Char → Bool} {front : List Char} (hSome : front ≠ [])
    (hFront : ∀ c ∈ front, p c = false) (rest : List Char) : EndsHere p (front ++ rest) := by
  cases front with
  | nil => exact absurd rfl hSome
  | cons c front => exact endsHere_cons (hFront c List.mem_cons_self) _

theorem behindWord_append {word : List Char} (hWord : word = ['o', 'f'] ∨ word = ['i', 'n'])
    (rest : List Char) : behindWord (word ++ rest) = some rest := by
  rcases hWord with rfl | rfl <;> rfl

theorem collection?_append {space collection behind : List Char} (hSpace : IsBlank space)
    (hSpaceSome : space ≠ []) (hSome : collection ≠ []) (hTrimmed : Trimmed collection)
    (hLine : '\n' ∉ collection) (hBehind : IsBlank behind) :
    collection? (space ++ (collection ++ behind)) = some collection := by
  have hCore : trimEnd ((space ++ (collection ++ behind)).dropWhile isBlank) = collection :=
    Markup.trim_append hSpace hBehind hTrimmed
  obtain ⟨c, space, rfl⟩ := List.exists_cons_of_ne_nil hSpaceSome
  rw [collection?_core, hCore]
  · rw [List.cons_append, List.takeWhile_cons_of_pos (hSpace c List.mem_cons_self)]
    rfl
  · rw [hCore, List.isEmpty_eq_false_iff]
    exact hSome
  · rw [hCore]
    exact hLine

/-- An item and a word are taken off a text, and what is read behind them is the
expression. -/
theorem split?_append {before item gap word rest collection : List Char} (hBefore : IsBlank before)
    (hItem : Unbroken item) (hItemSome : item ≠ []) (hGap : IsBlank gap) (hGapSome : gap ≠ [])
    (hWord : word = ['o', 'f'] ∨ word = ['i', 'n']) (hRead : collection? rest = some collection) :
    split? (before ++ (item ++ (gap ++ (word ++ rest)))) = some (item, collection) := by
  have hWordText : word ≠ [] ∧ Unbroken word := by
    rcases hWord with rfl | rfl <;> decide
  have hItemTaken := List.all_eq_true.mp (all_not_isBlank_iff.mpr hItem)
  have hGapStops : ∀ c ∈ gap, (!isBlank c) = false := fun c hMem => by rw [hGap c hMem]; rfl
  rw [split?, dropWhile_append hBefore (endsHere_of_ne_nil hItemSome hItem _),
    takeWhile_append hItemTaken (endsHere_of_ne_nil hGapSome hGapStops _), List.drop_left,
    dropWhile_append hGap (endsHere_of_ne_nil hWordText.1 hWordText.2 _),
    List.isEmpty_eq_false_iff.mpr hItemSome]
  simp only [behindWord_append hWord, Option.bind_eq_bind, Option.bind_some, hRead]
  rfl

/-- **A head is split as it is written.** -/
theorem HeadText.split?_eq {text item collection : List Char} (h : HeadText text item collection) :
    split? text = some (item, collection) := by
  cases h with
  | mk hBefore hItem hName hGap hGapSome hWord hSpace hSpaceSome hSome hTrimmed hLine hBehind =>
      have hItemSome : item ≠ [] := by
        rintro rfl
        cases hName
      exact split?_append hBefore hItem hItemSome hGap hGapSome hWord
        (collection?_append hSpace hSpaceSome hSome hTrimmed hLine hBehind)

theorem HeadText.isSome_identifier? {text item collection : List Char}
    (h : HeadText text item collection) :
    (Code.identifier? (String.ofList item)).isSome = true := by
  cases h
  assumption

/-- **Every head of a loop is read.** What is written as a head is read as its identifier
and its expression, whatever white space stands around them and whatever the expression
holds. Of the ways to read it that is the one that is tried first, and no head is
written as two loops. -/
theorem read?_of_headText {text item collection : List Char}
    (h : HeadText text item collection) :
    Loop.read? (String.ofList text) = some ⟨String.ofList item, String.ofList collection⟩ ∧
      (ways text).head? = some (item, collection) ∧
      ∀ otherItem other, HeadText text otherItem other → otherItem = item ∧ other = collection := by
  have hSplit := h.split?_eq
  obtain ⟨name, hName⟩ := Option.isSome_iff_exists.mp h.isSome_identifier?
  refine ⟨?_, ?_, ?_⟩
  · simp only [read?, String.toList_ofList, hSplit, Option.bind_eq_bind, Option.bind_some, hName]
    rfl
  · rw [← split?_eq_head?, hSplit]
  · intro otherItem other hOther
    have hBoth := hOther.split?_eq
    rw [hSplit] at hBoth
    cases hBoth
    exact ⟨rfl, rfl⟩

/-- A keyword taken for an identifier, with lines around it and an expression that has
both words in it. -/
theorem read?_of_headText_raw :
    let text := ['\n', '\u00a0', 'r', '#', 'i', 'n', '\t', '\n', 'o', 'f', '\u2003', 'x', ' ', 'o',
      'f', ' ', '"', ' ', 'i', 'n', '"', '\n', ' ']
    let item := ['r', '#', 'i', 'n']
    let collection := ['x', ' ', 'o', 'f', ' ', '"', ' ', 'i', 'n', '"']
    HeadText text item collection ∧
      read? (String.ofList text) = some ⟨"r#in", "x of \" in\""⟩ := by
  intro text item collection
  have hTrimmed : Trimmed collection :=
    ⟨fun c hMem => Option.mem_some_iff.mp hMem ▸ by decide,
      fun c hMem => Option.mem_some_iff.mp hMem ▸ by decide⟩
  have hHead : HeadText text item collection :=
    @HeadText.mk ['\n', '\u00a0'] item ['\t', '\n'] ['o', 'f'] ['\u2003'] collection ['\n', ' ']
      (by decide) (by decide) (by decide) (by decide) (by decide) (.inl rfl) (by decide) (by decide)
      (by decide) hTrimmed (by decide) (by decide)
  exact ⟨hHead, (read?_of_headText hHead).1⟩

end LiveMarkup.Template.Loop
