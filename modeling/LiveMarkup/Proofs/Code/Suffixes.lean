import LiveMarkup.Proofs.Code.Words

/-!
# What is left of a text

Whatever is taken off a text, be it a literal, a word or a comment, is taken from its front:
what is left is the end of the text. So the rest of a text that is cut into lexemes is
a part of it, and stands at its end.

## Main results

* `suffix_of_quoted?`, `suffix_of_number?` — literals leave the end of their text.
* `suffix_of_lexemes?` — **so does everything that a text is cut into**.
* `Reads.suffix` — the rest of a text is the end of it.
-/

namespace LiveMarkup.Code

variable {s behind : List Char}

/-! ## Between quotes -/

theorem suffix_behindSuffix (s : List Char) : behindSuffix s <:+ s := by
  rw [behindSuffix]
  split
  · rename_i word _ hWord
    exact ⟨word, word?_append hWord⟩
  · exact List.suffix_refl s

theorem suffix_of_codePoint? {value count : Nat} {c : Char}
    (h : codePoint? value count s = some (c, behind)) : behind <:+ s := by
  fun_induction codePoint? value count s with
  | case1 => cases h
  | case2 value count rest _ ih => exact (ih h).trans (List.suffix_cons _ rest)
  | case3 => cases h
  | case4 value count rest _ =>
      obtain ⟨_, -, hPair⟩ := Option.map_eq_some_iff.mp h
      cases hPair
      exact List.suffix_cons _ _
  | case5 => cases h
  | case6 value count d rest _ _ digit _ _ ih => exact (ih h).trans (List.suffix_cons d rest)
  | case7 => cases h
  | case8 => cases h

variable {alphabet : Alphabet}

theorem suffix_of_behindEscape (h : alphabet.behindEscape s = some behind) : behind <:+ s := by
  unfold Alphabet.behindEscape at h
  split at h
  · rename_i a b rest
    obtain ⟨_, -, rfl⟩ := Option.map_eq_some_iff.mp h
    exact ⟨['x', a, b], rfl⟩
  · split at h
    · cases h
    · obtain ⟨⟨c, _⟩, hFound, rfl⟩ := Option.map_eq_some_iff.mp h
      obtain ⟨hPoint, -⟩ := Option.filter_eq_some_iff.mp hFound
      exact (suffix_of_codePoint? hPoint).trans ⟨['u', '\x7b'], rfl⟩
  · split at h
    · cases h
    · cases h
      exact List.suffix_cons _ _
  · split at h
    · cases h
      exact List.suffix_cons _ _
    · cases h
  · cases h

theorem suffix_of_behindLineBreak (h : Alphabet.behindLineBreak s = some behind) : behind <:+ s := by
  fun_induction Alphabet.behindLineBreak s with
  | case1 rest ih => exact (ih h).trans ⟨['\r', '\n'], rfl⟩
  | case2 => cases h
  | case3 c rest _ _ _ ih => exact (ih h).trans (List.suffix_cons c rest)
  | case4 =>
      cases h
      exact List.suffix_refl _
  | case5 => cases h

theorem suffix_of_behindText {limit : Nat} (h : alphabet.behindText limit s = some behind) :
    behind <:+ s := by
  induction limit generalizing s with
  | zero => cases h
  | succ limit ih =>
      unfold Alphabet.behindText at h
      split at h
      · cases h
      · cases h
        exact List.suffix_cons _ _
      · rename_i hLimit
        cases hLimit
        obtain ⟨rest, hBreak, hRest⟩ := Option.bind_eq_some_iff.mp h
        exact (ih hRest).trans ((suffix_of_behindLineBreak hBreak).trans (List.suffix_cons _ _))
      · rename_i hLimit
        cases hLimit
        obtain ⟨rest, hBreak, hRest⟩ := Option.bind_eq_some_iff.mp h
        exact (ih hRest).trans ((suffix_of_behindLineBreak hBreak).trans (List.suffix_cons _ _))
      · rename_i hLimit
        cases hLimit
        obtain ⟨rest, hEscape, hRest⟩ := Option.bind_eq_some_iff.mp h
        exact (ih hRest).trans ((suffix_of_behindEscape hEscape).trans (List.suffix_cons _ _))
      · rename_i rest hLimit
        cases hLimit
        exact (ih h).trans ⟨['\r', '\n'], rfl⟩
      · cases h
      · rename_i hLimit
        cases hLimit
        split at h
        · exact (ih h).trans (List.suffix_cons _ _)
        · cases h
      · cases h

theorem suffix_of_behindRawText {marks : Nat} (h : alphabet.behindRawText marks s = some behind) :
    behind <:+ s := by
  fun_induction Alphabet.behindRawText alphabet marks s with
  | case1 => cases h
  | case2 rest ih => exact (ih h).trans ⟨['\r', '\n'], rfl⟩
  | case3 => cases h
  | case4 c rest _ _ _ =>
      cases h
      exact (List.drop_suffix marks rest).trans (List.suffix_cons c rest)
  | case5 c rest _ _ _ _ ih => exact (ih h).trans (List.suffix_cons c rest)
  | case6 => cases h

theorem suffix_of_behindMarked (h : alphabet.behindMarked s = some behind) : behind <:+ s := by
  unfold Alphabet.behindMarked at h
  dsimp only at h
  split at h
  · rename_i rest hQuote
    split at h
    · have hRest : '"' :: rest <:+ s := hQuote ▸ List.drop_suffix _ s
      exact (suffix_of_behindRawText h).trans ((List.suffix_cons _ rest).trans hRest)
    · cases h
  · cases h

theorem suffix_of_behindCharacter (h : alphabet.behindCharacter s = some behind) :
    behind <:+ s := by
  unfold Alphabet.behindCharacter at h
  split at h
  · split at h
    · rename_i hEscape
      cases h
      exact (List.suffix_cons _ _).trans ((suffix_of_behindEscape hEscape).trans
        (List.suffix_cons _ _))
    · cases h
  · split at h
    · cases h
      exact (List.suffix_cons _ _).trans (List.suffix_cons _ _)
    · cases h
  · cases h

theorem suffix_of_quoted? {literal : Literal} (h : quoted? s = some (literal, behind)) :
    behind <:+ s := by
  rw [quoted?_eq] at h
  obtain ⟨⟨kind, mid⟩, hBetween, hPair⟩ := Option.map_eq_some_iff.mp h
  cases hPair
  refine (suffix_behindSuffix mid).trans ?_
  unfold between? at hBetween
  split at hBetween
  case h_9 => cases hBetween
  all_goals
    obtain ⟨rest, hRead, hFound⟩ := Option.map_eq_some_iff.mp hBetween
    cases hFound
  · exact (suffix_of_behindText hRead).trans (List.suffix_cons _ _)
  · exact (suffix_of_behindMarked hRead).trans (List.suffix_cons _ _)
  · exact (suffix_of_behindText hRead).trans ⟨['b', '"'], rfl⟩
  · exact (suffix_of_behindMarked hRead).trans ⟨['b', 'r'], rfl⟩
  · exact (suffix_of_behindCharacter hRead).trans ⟨['b', '\''], rfl⟩
  · exact (suffix_of_behindText hRead).trans ⟨['c', '"'], rfl⟩
  · exact (suffix_of_behindMarked hRead).trans ⟨['c', 'r'], rfl⟩
  · exact (suffix_of_behindCharacter hRead).trans (List.suffix_cons _ _)

/-! ## Numbers -/

theorem suffix_behindSign (s : List Char) : behindSign s <:+ s := by
  unfold behindSign
  split
  · exact List.suffix_cons _ _
  · exact List.suffix_cons _ _
  · exact List.suffix_refl _

theorem suffix_of_behindExponent (h : behindExponent s = some behind) : behind <:+ s := by
  have hDigits : (behindSign (s.dropWhile (· == '_'))).dropWhile (· == '_') <:+ s :=
    (List.dropWhile_suffix _).trans ((suffix_behindSign _).trans (List.dropWhile_suffix _))
  rw [behindExponent_eq] at h
  split at h
  · rename_i c rest hText
    rw [hText] at hDigits
    split at h
    · cases h
      exact (List.dropWhile_suffix _).trans ((List.suffix_cons c rest).trans hDigits)
    · cases h
  · cases h

theorem suffix_behindPower (s : List Char) : behindPower s <:+ s := by
  have hLetter : ∀ c power, (behindExponent power).getD (c :: power) <:+ c :: power := by
    intro c power
    cases hPower : behindExponent power with
    | none => exact List.suffix_refl _
    | some behind => exact (suffix_of_behindExponent hPower).trans (List.suffix_cons c power)
  unfold behindPower
  split
  · exact hLetter 'e' _
  · exact hLetter 'E' _
  · exact List.suffix_refl _

theorem suffix_of_behindFractionDigits (h : behindFractionDigits s = some behind) :
    behind <:+ s := by
  rw [behindFractionDigits_eq] at h
  refine List.IsSuffix.trans ?_ (List.dropWhile_suffix isDecimalPlace)
  unfold behindPoint at h
  split at h
  · split at h
    · cases h
    · rename_i hText _
      cases h
      rw [hText]
      exact (suffix_behindPower _).trans ((List.dropWhile_suffix _).trans (List.suffix_cons _ _))
  · rename_i hText
    rw [hText]
    exact (suffix_of_behindExponent h).trans (List.suffix_cons _ _)
  · rename_i hText
    rw [hText]
    exact (suffix_of_behindExponent h).trans (List.suffix_cons _ _)
  · cases h

theorem suffix_of_behindWholeDigits (h : behindWholeDigits s = some behind) : behind <:+ s := by
  have hRadix : (radixOf s).2 <:+ s := by
    unfold radixOf
    split
    · exact ⟨['0', 'x'], rfl⟩
    · exact ⟨['0', 'o'], rfl⟩
    · exact ⟨['0', 'b'], rfl⟩
    · exact List.suffix_refl _
  simp only [behindWholeDigits] at h
  split at h
  · cases h
    exact (List.drop_suffix _ _).trans hRadix
  · cases h

theorem suffix_of_number? {literal : Literal} (h : number? s = some (literal, behind)) :
    behind <:+ s := by
  have hNumber : ∀ {digits : Option (List Char)} {behind : List Char},
      (∀ rest, digits = some rest → rest <:+ s) → digits.bind behindNumber = some behind →
        behind <:+ s := by
    intro digits behind hDigits hBoth
    obtain ⟨rest, rfl, hRest⟩ := Option.bind_eq_some_iff.mp hBoth
    rw [behindNumber] at hRest
    split at hRest
    · cases hRest
    · cases hRest
      exact (suffix_behindSuffix rest).trans (hDigits rest rfl)
  rw [number?] at h
  split at h
  · dsimp only at h
    split at h
    · rename_i hFraction
      cases h
      exact hNumber (fun _ => suffix_of_behindFractionDigits) hFraction
    · obtain ⟨_, hWhole, hPair⟩ := Option.map_eq_some_iff.mp h
      cases hPair
      exact hNumber (fun _ => suffix_of_behindWholeDigits) hWhole
  · cases h

/-! ## Tokens -/

theorem suffix_of_wordToken? {token : Token} (h : wordToken? s = some (token, behind)) :
    behind <:+ s := by
  obtain ⟨text, -, rfl, -⟩ := wordToken?_sound h
  exact List.suffix_append text behind

theorem suffix_of_behindQuote? {token : Token} (h : behindQuote? s = some (token, behind)) :
    behind <:+ s := by
  simp only [behindQuote?, Option.bind_eq_bind, Option.bind_eq_some_iff] at h
  obtain ⟨_, -, h⟩ := h
  split at h
  · cases h
  · split at h
    · cases h
    · split at h
      · cases h
        exact List.suffix_refl _
      · obtain ⟨⟨name, rest⟩, hName, h⟩ := Option.bind_eq_some_iff.mp h
        have hRest := suffix_of_wordToken? hName
        dsimp only at h
        split at h <;> cases h <;> exact hRest

theorem suffix_of_token? {token : Token} (h : token? s = some (token, behind)) : behind <:+ s := by
  unfold token? at h
  split at h
  · cases h
    exact List.drop_suffix _ _
  · split at h
    · rename_i hLiteral
      cases h
      rw [literal?, Option.or_eq_some_iff] at hLiteral
      rcases hLiteral with hQuoted | ⟨-, hNumber⟩
      · exact suffix_of_quoted? hQuoted
      · exact suffix_of_number? hNumber
    · split at h
      · exact (suffix_of_behindQuote? h).trans (List.suffix_cons _ _)
      · split at h
        · cases h
          exact List.suffix_cons _ _
        · exact suffix_of_wordToken? h
      · cases h

theorem suffix_of_behindDocumentation (h : behindDocumentation s = some behind) : behind <:+ s := by
  unfold behindDocumentation at h
  split at h
  · obtain ⟨hBlock, -⟩ := Option.filter_eq_some_iff.mp h
    obtain ⟨block, rfl⟩ := exists_block hBlock
    exact ⟨'/' :: '*' :: block, rfl⟩
  · dsimp only at h
    split at h
    · cases h
    · cases h
      exact List.dropWhile_suffix _

/-- **Everything that a text is cut into leaves the end of it.** -/
theorem suffix_of_lexemes? {front : List Lexeme} (h : lexemes? s = some (front, behind)) :
    behind <:+ s := by
  rcases lexemes?_cases h with ⟨-, hDoc, -⟩ | ⟨-, ⟨_, hToken, -⟩ | ⟨-, c, _, rfl, -, -⟩⟩
  · exact suffix_of_behindDocumentation hDoc
  · exact suffix_of_token? hToken
  · exact List.suffix_cons c behind

/-- The rest of a text is the end of it. -/
theorem Reads.suffix {lexemes : List Lexeme} {rest : List Char} (h : Reads s lexemes rest) :
    rest <:+ s := by
  induction h with
  | here s => exact List.suffix_refl s
  | apart hSeparator _ _ ih =>
      obtain ⟨c, tail, rfl, -⟩ := exists_separator hSeparator
      exact ih.trans (List.suffix_append (c :: tail) _)
  | lexeme hFront _ _ ih => exact ih.trans (suffix_of_lexemes? hFront)

end LiveMarkup.Code
