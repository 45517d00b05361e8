import LiveMarkup.Proofs.Code.Spacing

/-!
# Literals in front of a space

What stands between quotes ends with the second one, whatever follows, and a text that may
not be escaped ends with a quote and as many marks as it has in front; a space adds none to
them. A suffix is a word and ends in front of a space.

Without its second quote a literal is none, but a space and more text behind it may end it.
So the absence of a literal lasts only where none has begun: behind none of the beginnings
of literals, and behind no quote.

## Main definitions

* `between?` — what stands between quotes, without the suffix behind them.

## Main results

* `behindText_append`, `behindRawText_space`, `behindCharacter_append` — what is between
  quotes ends where it does.
* `literal?_space` — **a literal is the same in front of a space**.
* `quoted?_eq_none`, `quoted?_of_isDigit` — where no literal in quotes has begun.
-/

namespace LiveMarkup.Code

open Text (digitValue?)

variable {s behind : List Char}

/-! ## Between quotes -/

theorem codePoint?_append {value count : Nat} {c : Char}
    (h : codePoint? value count s = some (c, behind)) (t : List Char) :
    codePoint? value count (s ++ t) = some (c, behind ++ t) := by
  fun_induction codePoint? value count s with
  | case1 => cases h
  | case2 value count rest hCount ih => rw [List.cons_append, codePoint?, if_neg hCount, ih h]
  | case3 => cases h
  | case4 value count rest hCount =>
      obtain ⟨_, hScalar, hPair⟩ := Option.map_eq_some_iff.mp h
      cases hPair
      rw [List.cons_append, codePoint?, if_neg hCount, hScalar]
      rfl
  | case5 => cases h
  | case6 value count first rest hLine hBrace digit hDigit hCount ih =>
      rw [List.cons_append, codePoint?, hDigit]
      · simpa only [if_neg hCount] using ih h
      · exact hLine
      · exact hBrace
  | case7 => cases h
  | case8 => cases h

variable {alphabet : Alphabet}

theorem behindEscape_append (h : alphabet.behindEscape s = some behind) (t : List Char) :
    alphabet.behindEscape (s ++ t) = some (behind ++ t) := by
  unfold Alphabet.behindEscape at h
  split at h
  · obtain ⟨_, hNumber, rfl⟩ := Option.map_eq_some_iff.mp h
    simp [Alphabet.behindEscape, hNumber]
  · split at h
    · cases h
    · rename_i hBytes
      obtain ⟨⟨c, _⟩, hFound, rfl⟩ := Option.map_eq_some_iff.mp h
      obtain ⟨hPoint, hAllowed⟩ := Option.filter_eq_some_iff.mp hFound
      simp [Alphabet.behindEscape, hBytes, codePoint?_append hPoint t, hAllowed]
  · split at h
    · cases h
    · rename_i hNonzero
      cases h
      simp [Alphabet.behindEscape, hNonzero]
  · split at h
    · rename_i hSimple
      cases h
      simp only [List.mem_cons, List.not_mem_nil, or_false] at hSimple
      rcases hSimple with rfl | rfl | rfl | rfl | rfl | rfl <;> rfl
    · cases h
  · cases h

theorem behindLineBreak_append (h : Alphabet.behindLineBreak s = some behind) (t : List Char) :
    Alphabet.behindLineBreak (s ++ t) = some (behind ++ t) := by
  fun_induction Alphabet.behindLineBreak s with
  | case1 rest ih => exact ih h
  | case2 => cases h
  | case3 c rest _ hReturn hBlank ih =>
      rw [List.cons_append, Alphabet.behindLineBreak, if_pos hBlank, ih h]
      · exact fun _ hHere => absurd hHere hReturn
      · exact hReturn
  | case4 c rest _ hReturn hBlank =>
      cases h
      rw [List.cons_append, Alphabet.behindLineBreak, if_neg hBlank]
      · exact fun _ hHere => absurd hHere hReturn
      · exact hReturn
  | case5 => cases h

/-- A text between quotes ends where it does, also if it may be longer. -/
theorem behindText_append {limit more : Nat} (h : alphabet.behindText limit s = some behind)
    (hMore : limit ≤ more) (t : List Char) :
    alphabet.behindText more (s ++ t) = some (behind ++ t) := by
  induction limit generalizing s more with
  | zero => cases h
  | succ limit ih =>
      obtain ⟨more, rfl⟩ : ∃ less, more = less + 1 := ⟨more - 1, by omega⟩
      have hLess : limit ≤ more := Nat.le_of_succ_le_succ hMore
      unfold Alphabet.behindText at h
      split at h
      · rename_i hLimit
        cases hLimit
      · cases h
        rfl
      · rename_i hLimit
        cases hLimit
        obtain ⟨mid, hBreak, hRest⟩ := Option.bind_eq_some_iff.mp h
        have hLine := behindLineBreak_append hBreak t
        rw [List.cons_append] at hLine
        rw [List.cons_append, List.cons_append, Alphabet.behindText, hLine, Option.bind_some,
          ih hRest hLess]
      · rename_i hLimit
        cases hLimit
        obtain ⟨mid, hBreak, hRest⟩ := Option.bind_eq_some_iff.mp h
        have hLine := behindLineBreak_append hBreak t
        rw [List.cons_append] at hLine
        rw [List.cons_append, List.cons_append, Alphabet.behindText, hLine, Option.bind_some,
          ih hRest hLess]
      · rename_i rest hFeed hReturn hLimit
        cases hLimit
        obtain ⟨mid, hEscape, hRest⟩ := Option.bind_eq_some_iff.mp h
        -- No line break follows the backslash: an escape has a character of its own.
        have hNoBreak : ∀ c, (∀ tail, rest = c :: tail → False) →
            ∀ tail, rest ++ t = c :: tail → False := by
          intro c hNone tail hTail
          cases rest with
          | nil => cases hEscape
          | cons d rest =>
              cases hTail
              exact hNone rest rfl
        rw [List.cons_append, Alphabet.behindText, behindEscape_append hEscape t,
          Option.bind_some, ih hRest hLess]
        · exact hNoBreak '\n' hFeed
        · exact hNoBreak '\r' hReturn
      · rename_i hLimit
        cases hLimit
        rw [List.cons_append, List.cons_append, Alphabet.behindText]
        exact ih h hLess
      · cases h
      · rename_i c rest hQuote _ _ hBackslash _ hReturn hLimit
        cases hLimit
        split at h
        · rename_i hAllowed
          rw [List.cons_append, Alphabet.behindText, if_pos hAllowed, ih h hLess]
          · exact hQuote
          · exact fun _ hHere => absurd hHere hBackslash
          · exact fun _ hHere => absurd hHere hBackslash
          · exact hBackslash
          · exact fun _ hHere => absurd hHere hReturn
          · exact hReturn
        · cases h
      · cases h

/-- No mark is added to those behind a quote where a space follows. -/
theorem behindRawText_space {marks : Nat} (h : alphabet.behindRawText marks s = some behind)
    (t : List Char) :
    alphabet.behindRawText marks (s ++ ' ' :: t) = some (behind ++ ' ' :: t) := by
  have hMarks : ' ' ∉ List.replicate marks '#' := by
    rw [List.mem_replicate]
    exact fun hMem => absurd hMem.2 (by decide)
  fun_induction Alphabet.behindRawText alphabet marks s with
  | case1 => cases h
  | case2 rest ih => exact ih h
  | case3 => cases h
  | case4 c rest _ hReturn hEnd =>
      cases h
      rw [List.cons_append, Alphabet.behindRawText, isPrefixOf_space t hMarks, if_pos hEnd,
        List.drop_append_of_le_length]
      · rw [Bool.and_eq_true] at hEnd
        simpa using (List.isPrefixOf_iff_prefix.mp hEnd.2).length_le
      · exact fun _ hHere => absurd hHere hReturn
      · exact hReturn
  | case5 c rest _ hReturn hEnd hAllowed ih =>
      rw [List.cons_append, Alphabet.behindRawText, isPrefixOf_space t hMarks, if_neg hEnd,
        if_pos hAllowed]
      · exact ih h
      · exact fun _ hHere => absurd hHere hReturn
      · exact hReturn
  | case6 => cases h

/-- What has marks in front of its quote, as they are in front of a space. -/
theorem behindMarked_space (h : alphabet.behindMarked s = some behind) (t : List Char) :
    alphabet.behindMarked (s ++ ' ' :: t) = some (behind ++ ' ' :: t) := by
  unfold Alphabet.behindMarked at h ⊢
  dsimp only at h ⊢
  rw [takeWhile_space t (p := (· == '#')) rfl,
    List.drop_append_of_le_length (List.takeWhile_sublist _).length_le]
  generalize (s.takeWhile (· == '#')).length = marks at h ⊢
  split at h
  · rename_i rest hQuote
    rw [hQuote, List.cons_append]
    split at h
    · rename_i hFew
      exact (if_pos hFew).trans (behindRawText_space h t)
    · cases h
  · cases h

theorem behindCharacter_append (h : alphabet.behindCharacter s = some behind) (t : List Char) :
    alphabet.behindCharacter (s ++ t) = some (behind ++ t) := by
  unfold Alphabet.behindCharacter at h
  split at h
  · split at h
    · rename_i hEscape
      cases h
      rw [List.cons_append, Alphabet.behindCharacter, behindEscape_append hEscape t]
      rfl
    · cases h
  · rename_i hBackslash
    split at h
    · rename_i hAllowed
      cases h
      rw [List.cons_append, List.cons_append, Alphabet.behindCharacter, if_pos hAllowed]
      exact hBackslash
    · cases h
  · cases h

/-! ## Literals -/

/-- What stands between quotes, and the text behind it with the suffix. -/
def between? : List Char → Option (Literal × List Char)
  | '"' :: rest => (Alphabet.characters.behindText (rest.length + 1) rest).map (.text, ·)
  | 'r' :: rest => (Alphabet.characters.behindMarked rest).map (.text, ·)
  | 'b' :: '"' :: rest => (Alphabet.bytes.behindText (rest.length + 1) rest).map (.other, ·)
  | 'b' :: 'r' :: rest => (Alphabet.bytes.behindMarked rest).map (.other, ·)
  | 'b' :: '\'' :: rest => (Alphabet.bytes.behindCharacter rest).map (.other, ·)
  | 'c' :: '"' :: rest => (Alphabet.nonzero.behindText (rest.length + 1) rest).map (.other, ·)
  | 'c' :: 'r' :: rest => (Alphabet.nonzero.behindMarked rest).map (.other, ·)
  | '\'' :: rest => (Alphabet.characters.behindCharacter rest).map (.other, ·)
  | _ => none

theorem quoted?_eq (s : List Char) :
    quoted? s = (between? s).map fun found => (found.1, behindSuffix found.2) := by
  unfold quoted? between?
  rfl

theorem between?_space {found : Literal × List Char} (h : between? s = some found)
    (t : List Char) : between? (s ++ ' ' :: t) = some (before (' ' :: t) found) := by
  have hText : ∀ {alphabet : Alphabet} {rest mid : List Char},
      alphabet.behindText (rest.length + 1) rest = some mid →
        alphabet.behindText ((rest ++ ' ' :: t).length + 1) (rest ++ ' ' :: t) =
          some (mid ++ ' ' :: t) := by
    intro alphabet rest mid hRead
    exact behindText_append hRead (by simp) _
  have hMarked : ∀ {alphabet : Alphabet} {rest mid : List Char},
      alphabet.behindMarked rest = some mid →
        alphabet.behindMarked (rest ++ ' ' :: t) = some (mid ++ ' ' :: t) :=
    fun hRead => behindMarked_space hRead t
  have hCharacter : ∀ {alphabet : Alphabet} {rest mid : List Char},
      alphabet.behindCharacter rest = some mid →
        alphabet.behindCharacter (rest ++ ' ' :: t) = some (mid ++ ' ' :: t) :=
    fun hRead => behindCharacter_append hRead _
  unfold between? at h
  split at h
  case h_9 => cases h
  all_goals
    obtain ⟨mid, hRead, rfl⟩ := Option.map_eq_some_iff.mp h
    refine Option.map_eq_some_iff.mpr ⟨mid ++ ' ' :: t, ?_, rfl⟩
  · exact hText hRead
  · exact hMarked hRead
  · exact hText hRead
  · exact hMarked hRead
  · exact hCharacter hRead
  · exact hText hRead
  · exact hMarked hRead
  · exact hCharacter hRead

/-- A literal between quotes is the same in front of a space. -/
theorem quoted?_space {found : Literal × List Char} (h : quoted? s = some found)
    (t : List Char) : quoted? (s ++ ' ' :: t) = some (before (' ' :: t) found) := by
  rw [quoted?_eq] at h ⊢
  obtain ⟨mid, hBetween, rfl⟩ := Option.map_eq_some_iff.mp h
  rw [between?_space hBetween t, Option.map_some, before, behindSuffix_space]
  rfl

/-- A text that may not be escaped begins with its quote or with the marks around it. -/
theorem begins_of_behindMarked (h : alphabet.behindMarked s = some behind) :
    ['"'] <+: s ∨ ['#', '"'] <+: s ∨ ['#', '#'] <+: s := by
  cases s with
  | nil => cases h
  | cons c s =>
      by_cases hQuote : c = '"'
      · exact .inl ⟨s, by rw [hQuote]; rfl⟩
      · by_cases hMark : c = '#'
        · subst hMark
          cases s with
          | nil => cases h
          | cons d s =>
              by_cases hSecond : d = '"'
              · exact .inr (.inl ⟨s, by rw [hSecond]; rfl⟩)
              · by_cases hMarks : d = '#'
                · exact .inr (.inr ⟨s, by rw [hMarks]; rfl⟩)
                · simp [Alphabet.behindMarked, hMarks, hSecond] at h
        · simp [Alphabet.behindMarked, hMark, hQuote] at h

/-- What has none of the beginnings of literals in quotes, and no quote, is none. -/
theorem quoted?_eq_none (hMarks : (quotedMarks.any fun mark => mark.toList.isPrefixOf s) = false)
    (hText : s.head? ≠ some '"') (hCharacter : s.head? ≠ some '\'') : quoted? s = none := by
  have hNone : ∀ mark ∈ quotedMarks, ¬ mark.toList <+: s := by
    intro mark hMem hPrefix
    exact List.any_eq_false.mp hMarks mark hMem (List.isPrefixOf_iff_prefix.mpr hPrefix)
  have hMarked : ∀ {rest : List Char} {alphabet : Alphabet} (front : List Char),
      s = front ++ rest →
      (∀ mark ∈ [['"'], ['#', '"'], ['#', '#']],
        ∃ whole ∈ quotedMarks, whole.toList.isPrefixOf (front ++ mark) = true) →
      alphabet.behindMarked rest = none := by
    intro rest alphabet front hFront hWhole
    cases hRead : alphabet.behindMarked rest with
    | none => rfl
    | some behind =>
        obtain ⟨mark, hMem, hPrefix⟩ : ∃ mark ∈ [['"'], ['#', '"'], ['#', '#']], mark <+: rest := by
          rcases begins_of_behindMarked hRead with hPrefix | hPrefix | hPrefix
          · exact ⟨_, by simp, hPrefix⟩
          · exact ⟨_, by simp, hPrefix⟩
          · exact ⟨_, by simp, hPrefix⟩
        obtain ⟨whole, hThere, hBegins⟩ := hWhole mark hMem
        refine absurd ((List.isPrefixOf_iff_prefix.mp hBegins).trans ?_) (hNone whole hThere)
        rw [hFront]
        exact (List.prefix_append_right_inj front).mpr hPrefix
  rw [quoted?_eq, Option.map_eq_none_iff]
  unfold between?
  split
  · exact absurd rfl hText
  · rw [hMarked ['r'] rfl (by decide)]
    rfl
  · exact absurd ⟨_, rfl⟩ (hNone "b\"" (by decide))
  · rw [hMarked ['b', 'r'] rfl (by decide)]
    rfl
  · exact absurd ⟨_, rfl⟩ (hNone "b'" (by decide))
  · exact absurd ⟨_, rfl⟩ (hNone "c\"" (by decide))
  · rw [hMarked ['c', 'r'] rfl (by decide)]
    rfl
  · exact absurd rfl hCharacter
  · rfl

/-- No literal in quotes begins with a digit. -/
theorem quoted?_of_isDigit {c : Char} {rest : List Char} (h : c.isDigit = true) :
    quoted? (c :: rest) = none := by
  rw [quoted?_eq, Option.map_eq_none_iff]
  unfold between?
  split
  case h_9 => rfl
  all_goals
    rename_i hText
    cases hText
    exact absurd h (by decide)

/-- A literal is the same in front of a space. -/
theorem literal?_space {found : Literal × List Char} (h : literal? s = some found)
    (t : List Char) : literal? (s ++ ' ' :: t) = some (before (' ' :: t) found) := by
  rw [literal?] at h ⊢
  cases hQuoted : quoted? s with
  | some quoted =>
      rw [hQuoted] at h
      cases h
      rw [quoted?_space hQuoted t]
      rfl
  | none =>
      rw [hQuoted, Option.none_or] at h
      have hNumber := h
      rw [number?] at hNumber
      split at hNumber
      · rename_i hDigit
        cases s with
        | nil => cases hDigit
        | cons c s =>
            rw [number?_space, h, List.cons_append, quoted?_of_isDigit hDigit]
            rfl
      · cases hNumber

end LiveMarkup.Code
