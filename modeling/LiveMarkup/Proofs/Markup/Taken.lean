import LiveMarkup.Text.Blank
import LiveMarkup.Proofs.Markup.Taking

/-!
# What readers have taken

The rules of `LiveMarkup.Proofs.Markup.Taking` follow a grammar through a text
that is known. The rules here go the other way: from a reader that took something
to what the readers that it is made of took, and from the readers of text to the
text itself.

What is known is one run with one trail, so `CanTake` and `CanFail` ask for some
trail where `Took` and `Refused` ask for all. `Past` says what was taken: which
text stands between two cursors.

## Main results

* `CanTake.of_bind`, `CanTake.of_orElse`, `CanTake.of_named` — readers put together.
* `CanTake.of_takeWhile`, `CanTake.of_takeUpTo` — all of a class, and nothing that
  contains a stop.
* `CanTake.many_induction` — pieces.
-/

namespace LiveMarkup.Markup

/-- The text stands between the two cursors. -/
structure Cursor.Past (cursor : Cursor) (text : List Char) (after : Cursor) : Prop where
  rest : cursor.rest = text ++ after.rest
  position : after.position = cursor.position.advance text

namespace Cursor

theorem Past.refl (cursor : Cursor) : cursor.Past [] cursor :=
  ⟨rfl, rfl⟩

theorem Past.trans {cursor mid after : Cursor} {front back : List Char}
    (hFront : cursor.Past front mid) (hBack : mid.Past back after) :
    cursor.Past (front ++ back) after where
  rest := by rw [hFront.rest, hBack.rest, List.append_assoc]
  position := by rw [hBack.position, hFront.position, Text.Position.advance_append]

theorem past_advance {cursor : Cursor} {text : List Char} (h : text <+: cursor.rest) :
    cursor.Past text (cursor.advance text.length) := by
  obtain ⟨tail, hTail⟩ := h
  simp only [advance, ← hTail, List.drop_left, List.take_left]
  exact ⟨hTail.symm, rfl⟩

end Cursor

namespace Reader

variable {α β : Type}

/-- On some trail the reader takes a value and moves to the other cursor. -/
def CanTake (r : Reader α) (cursor : Cursor) (a : α) (after : Cursor) : Prop :=
  ∃ trail, (r cursor trail).1 = some (a, after)

/-- On some trail the reader takes nothing at the cursor. -/
def CanFail (r : Reader α) (cursor : Cursor) : Prop :=
  ∃ trail, (r cursor trail).1 = none

theorem CanFail.not_took {r : Reader α} {cursor after : Cursor} {a : α} (h : CanFail r cursor) :
    ¬ Took r cursor a after := by
  obtain ⟨trail, hFail⟩ := h
  intro hTook
  rw [hTook trail] at hFail
  cases hFail

theorem CanTake.not_refused {r : Reader α} {cursor after : Cursor} {a : α}
    (h : CanTake r cursor a after) : ¬ Refused r cursor := by
  obtain ⟨trail, hTake⟩ := h
  intro hRefused
  rw [hRefused trail] at hTake
  cases hTake

/-! ## Readers put together -/

theorem CanTake.of_pure {cursor after : Cursor} {a b : α} (h : CanTake (pure a) cursor b after) :
    a = b ∧ cursor = after := by
  obtain ⟨_, hTake⟩ := h
  exact Prod.mk.inj (Option.some.inj hTake)

theorem CanTake.of_position {cursor after : Cursor} {p : Text.Position}
    (h : CanTake position cursor p after) : cursor.position = p ∧ cursor = after := by
  obtain ⟨_, hTake⟩ := h
  exact Prod.mk.inj (Option.some.inj hTake)

theorem CanTake.of_bind {r : Reader α} {f : α → Reader β} {cursor after : Cursor} {b : β}
    (h : CanTake (r >>= f) cursor b after) :
    ∃ a mid, CanTake r cursor a mid ∧ CanTake (f a) mid b after := by
  obtain ⟨trail, hTake⟩ := h
  change (Reader.bind r f cursor trail).1 = some (b, after) at hTake
  rw [Reader.bind] at hTake
  split at hTake
  · rename_i a mid between hRun
    exact ⟨a, mid, ⟨trail, by rw [hRun]⟩, ⟨between, hTake⟩⟩
  · cases hTake

/-- Behind `position` the rest is read where it was. -/
theorem CanTake.of_position_bind {f : Text.Position → Reader β} {cursor after : Cursor} {b : β}
    (h : CanTake (position >>= f) cursor b after) : CanTake (f cursor.position) cursor b after := by
  obtain ⟨p, mid, hPosition, hRest⟩ := h.of_bind
  obtain ⟨rfl, rfl⟩ := hPosition.of_position
  exact hRest

theorem CanTake.of_return {r : Reader α} {f : α → β} {cursor after : Cursor} {b : β}
    (h : CanTake (r >>= fun a => pure (f a)) cursor b after) :
    ∃ a, CanTake r cursor a after ∧ f a = b := by
  obtain ⟨a, mid, hTake, hReturn⟩ := h.of_bind
  obtain ⟨hEq, rfl⟩ := hReturn.of_pure
  exact ⟨a, hTake, hEq⟩

theorem CanTake.of_map {r : Reader α} {f : α → β} {cursor after : Cursor} {b : β}
    (h : CanTake (f <$> r) cursor b after) : ∃ a, CanTake r cursor a after ∧ f a = b :=
  CanTake.of_return h

theorem CanTake.of_orElse {r s : Reader α} {cursor after : Cursor} {a : α}
    (h : CanTake (orElse r s) cursor a after) :
    CanTake r cursor a after ∨ CanFail r cursor ∧ CanTake s cursor a after := by
  obtain ⟨trail, hTake⟩ := h
  rw [orElse] at hTake
  split at hTake
  · rename_i between hRun
    exact .inr ⟨⟨trail, by rw [hRun]⟩, ⟨between, hTake⟩⟩
  · exact .inl ⟨trail, hTake⟩

theorem CanTake.of_named {c : Construct} {r : Reader α} {cursor after : Cursor} {a : α}
    (h : CanTake (named c r) cursor a after) : CanTake r cursor a after := by
  obtain ⟨trail, hTake⟩ := h
  rw [named] at hTake
  split at hTake
  · cases hTake
  · exact ⟨trail, hTake⟩

theorem CanTake.of_optional {r : Reader α} {cursor after : Cursor} {found : Option α}
    (h : CanTake (optional r) cursor found after) :
    (∃ a, CanTake r cursor a after ∧ some a = found) ∨
      CanFail r cursor ∧ none = found ∧ cursor = after := by
  rcases h.of_orElse with hThere | ⟨hFail, hNone⟩
  · exact .inl hThere.of_map
  · obtain ⟨trail, hFailed⟩ := hFail
    refine .inr ⟨⟨trail, ?_⟩, hNone.of_pure⟩
    -- A value that is taken stays one under `some`.
    change (Reader.bind r _ cursor trail).1 = none at hFailed
    rw [Reader.bind] at hFailed
    split at hFailed
    · cases hFailed
    · rename_i hRun
      rw [hRun]

/-! ## Readers of text -/

theorem CanTake.of_literal {text : List Char} {cursor after : Cursor} {u : Unit}
    (h : CanTake (literal text) cursor u after) : cursor.Past text after := by
  obtain ⟨_, hTake⟩ := h
  rw [literal] at hTake
  split at hTake
  · rename_i hPrefix
    cases hTake
    exact Cursor.past_advance (List.isPrefixOf_iff_prefix.mp hPrefix)
  · cases hTake

/-- **All of a class is taken.** -/
theorem CanTake.of_takeWhile {p : Char → Bool} {taken : List Char} {cursor after : Cursor}
    (h : CanTake (takeWhile p) cursor taken after) :
    cursor.Past taken after ∧ (∀ c ∈ taken, p c = true) ∧ EndsHere p after.rest := by
  obtain ⟨_, hTake⟩ := h
  rw [takeWhile_run] at hTake
  cases hTake
  refine ⟨⟨List.takeWhile_append_dropWhile.symm, rfl⟩, List.all_eq_true.mp List.all_takeWhile, ?_⟩
  exact fun _ hMem => Text.head_dropWhile hMem

theorem CanTake.of_takeWhile1 {p : Char → Bool} {taken : List Char} {cursor after : Cursor}
    (h : CanTake (takeWhile1 p) cursor taken after) :
    cursor.Past taken after ∧ taken ≠ [] ∧ (∀ c ∈ taken, p c = true) ∧ EndsHere p after.rest := by
  obtain ⟨some, mid, hTake, hCheck⟩ := h.of_bind
  split at hCheck
  · exact absurd (refused_fail mid) hCheck.not_refused
  · rename_i hEmpty
    obtain ⟨rfl, rfl⟩ := hCheck.of_pure
    obtain ⟨hPast, hClass⟩ := hTake.of_takeWhile
    exact ⟨hPast, fun hNil => hEmpty (List.isEmpty_iff.mpr hNil), hClass⟩

theorem CanTake.of_satisfy {p : Char → Bool} {c : Char} {cursor after : Cursor}
    (h : CanTake (satisfy p) cursor c after) : cursor.Past [c] after ∧ p c = true := by
  obtain ⟨_, hTake⟩ := h
  rw [satisfy] at hTake
  split at hTake
  · rename_i hRest
    split at hTake
    · rename_i hClass
      cases hTake
      exact ⟨@Cursor.past_advance cursor [c] ⟨_, hRest.symm⟩, hClass⟩
    · cases hTake
  · cases hTake

theorem CanTake.of_atEnd {cursor after : Cursor} {u : Unit} (h : CanTake atEnd cursor u after) :
    cursor.rest = [] ∧ cursor = after := by
  obtain ⟨_, hTake⟩ := h
  rw [atEnd] at hTake
  split at hTake
  · rename_i hEmpty
    cases hTake
    exact ⟨List.isEmpty_iff.mp hEmpty, rfl⟩
  · cases hTake

/-! ## Stops -/

theorem upTo_isPrefix (stop text : List Char) : upTo stop text <+: text := by
  induction text with
  | nil => exact List.prefix_rfl
  | cons c rest ih =>
      rw [upTo]
      split
      · exact List.nil_prefix
      · exact List.cons_prefix_cons.mpr ⟨rfl, ih⟩

/-- Nothing in front of the first stop contains one. -/
theorem not_infix_upTo {stop : List Char} (hStop : stop ≠ []) (text : List Char) :
    ¬ stop <:+: upTo stop text := by
  induction text with
  | nil => exact fun hInfix => hStop (List.infix_nil.mp hInfix)
  | cons c rest ih =>
      rw [upTo]
      split
      · exact fun hInfix => hStop (List.infix_nil.mp hInfix)
      · rename_i hNot
        rw [List.infix_cons_iff]
        rintro (hPrefix | hInfix)
        · have hFront : c :: upTo stop rest <+: c :: rest :=
            List.cons_prefix_cons.mpr ⟨rfl, upTo_isPrefix stop rest⟩
          exact hNot (List.isPrefixOf_iff_prefix.mpr (hPrefix.trans hFront))
        · exact ih hInfix

/-- **Nothing that contains a stop is taken** in front of one. -/
theorem CanTake.of_takeUpTo {stop taken : List Char} {cursor after : Cursor} (hStop : stop ≠ [])
    (h : CanTake (takeUpTo stop) cursor taken after) :
    cursor.Past taken after ∧ ¬ stop <:+: taken := by
  obtain ⟨_, hTake⟩ := h
  rw [takeUpTo] at hTake
  cases hTake
  exact ⟨Cursor.past_advance (upTo_isPrefix stop _), not_infix_upTo hStop _⟩

/-! ## Pieces -/

/-- **What is so of no piece, and is kept when a piece is put in front, is so of any
number of pieces.** -/
theorem CanTake.upToMany_induction {r : Reader α} {motive : Cursor → List α → Cursor → Prop}
    (nil : ∀ cursor, motive cursor [] cursor)
    (cons : ∀ {cursor mid after a rest}, CanTake r cursor a mid → motive mid rest after →
      motive cursor (a :: rest) after)
    {limit : Nat} {cursor after : Cursor} {pieces : List α}
    (h : CanTake (upToMany r limit) cursor pieces after) : motive cursor pieces after := by
  induction limit generalizing cursor pieces with
  | zero =>
      obtain ⟨rfl, rfl⟩ := h.of_pure
      exact nil cursor
  | succ limit ih =>
      rcases h.of_orElse with hMore | ⟨_, hNone⟩
      · obtain ⟨a, mid, hFirst, hMore⟩ := hMore.of_bind
        obtain ⟨rest, hRest, rfl⟩ := hMore.of_return
        exact cons hFirst (ih hRest)
      · obtain ⟨rfl, rfl⟩ := hNone.of_pure
        exact nil cursor

@[elab_as_elim]
theorem CanTake.many_induction {r : Reader α} {motive : Cursor → List α → Cursor → Prop}
    (nil : ∀ cursor, motive cursor [] cursor)
    (cons : ∀ {cursor mid after a rest}, CanTake r cursor a mid → motive mid rest after →
      motive cursor (a :: rest) after)
    {cursor after : Cursor} {pieces : List α} (h : CanTake (many r) cursor pieces after) :
    motive cursor pieces after :=
  @CanTake.upToMany_induction _ r motive nil cons (cursor.rest.length + 1) _ _ _ h

end Reader

end LiveMarkup.Markup
