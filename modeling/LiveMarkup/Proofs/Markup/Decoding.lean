import LiveMarkup.Proofs.Markup.Layout
import Mathlib.Data.List.Induction

/-!
# What is read as references

The way back from `LiveMarkup.Proofs.Markup.Spelling`: whatever is read without
a fault is a spelling of what it is read as, with one exception. The reader of
numbers takes a plus sign in front of the digits, which no reference has.
`Unsigned` says of a text that it has no sign there, and of such a text nothing
but spellings are read.

## Main results

* `numeral_of_digitsValue?` — what is read as a number is a numeral.
* `resolve?_eq_some_iff`, `isReference_of_resolve?` — what is read as a character is a
  reference to it, but for a sign.
* `spells_of_decode` — **what is read without a fault is a spelling**.
-/

namespace LiveMarkup.Markup

/-! ## Results -/

theorem exists_of_map_ok {ε α β : Type} {f : α → β} {result : Except ε α} {b : β}
    (h : result.map f = .ok b) : ∃ a, result = .ok a ∧ f a = b := by
  cases result with
  | error fault => cases h
  | ok a =>
      cases h
      exact ⟨a, rfl, rfl⟩

theorem exists_of_bind_ok {ε α β : Type} {f : α → Except ε β} {result : Except ε α} {b : β}
    (h : result >>= f = .ok b) : ∃ a, result = .ok a ∧ f a = .ok b := by
  cases result with
  | error fault => cases h
  | ok a => exact ⟨a, rfl, h⟩

/-! ## Numerals -/

theorem char_eq_of_toNat {c d : Char} (h : c.toNat = d.toNat) : c = d := by
  rw [← Char.ofNat_toNat c, h, Char.ofNat_toNat]

/-- What is read as a digit is one, in lower or in upper case. -/
theorem isDigit_of_digitValue? {radix value : Nat} {c : Char} (hRadix : radix ≤ 16)
    (h : Text.digitValue? radix c = some value) : IsDigit radix c value := by
  simp only [Text.digitValue?, Option.filter_eq_some_iff, decide_eq_true_eq] at h
  obtain ⟨hRead, hLt⟩ := h
  have hSmall : value < 16 := Nat.lt_of_lt_of_le hLt hRadix
  have hCode : c.toNat = 48 + value ∧ value < 10 ∨ c.toNat = 87 + value ∧ 10 ≤ value ∨
      c.toNat = 55 + value ∧ 10 ≤ value := by
    simp only [Bool.and_eq_true, decide_eq_true_eq, Char.le_def, UInt32.le_iff_toNat_le] at hRead
    change (if 48 ≤ c.toNat ∧ c.toNat ≤ 57 then some (c.toNat - 48)
      else if 97 ≤ c.toNat ∧ c.toNat ≤ 122 then some (c.toNat - 97 + 10)
      else if 65 ≤ c.toNat ∧ c.toNat ≤ 90 then some (c.toNat - 65 + 10) else none) = _ at hRead
    grind
  refine ⟨hLt, ?_⟩
  rcases hCode with ⟨hCode, hValue⟩ | ⟨hCode, hValue⟩ | ⟨hCode, hValue⟩
  · exact .inl (char_eq_of_toNat (by rw [hCode]; interval_cases value <;> rfl))
  · exact .inl (char_eq_of_toNat (by rw [hCode]; interval_cases value <;> rfl))
  · exact .inr (char_eq_of_toNat (by rw [hCode]; interval_cases value <;> rfl))

/-- **What is read as a number is a numeral.** -/
theorem numeral_of_digitsValue? {radix value : Nat} {digits : List Char} (hRadix : radix ≤ 16)
    (hNe : digits ≠ []) (h : Text.digitsValue? radix 0 digits = some value) :
    Numeral radix digits value := by
  -- A numeral grows at its end, so the induction takes the last digit away.
  induction digits using List.reverseRecOn generalizing value with
  | nil => exact absurd rfl hNe
  | append_singleton front c ih =>
      rw [digitsValue?_append, Option.bind_eq_some_iff] at h
      obtain ⟨high, hHigh, hLast⟩ := h
      rw [Text.digitsValue?] at hLast
      split at hLast
      · rename_i low hLow
        have hDigit := isDigit_of_digitValue? hRadix hLow
        obtain rfl : high * radix + low = value := Option.some.inj hLast
        by_cases hFront : front = []
        · subst hFront
          obtain rfl : 0 = high := Option.some.inj hHigh
          rw [Nat.zero_mul, Nat.zero_add]
          exact .digit hDigit
        · exact .more (ih hFront hHigh) hDigit
      · cases hLast

/-! ## References -/

/-- What is read like a reference to a character and is none: a plus sign stands in
front of the number. -/
inductive IsSigned : List Char → Char → Prop where
  | decimal {digits : List Char} {c : Char} (hDigits : Numeral 10 digits c.toNat) :
      IsSigned ('#' :: '+' :: digits) c
  | hexadecimal {x c : Char} {digits : List Char} (hMark : x = 'x' ∨ x = 'X')
      (hDigits : Numeral 16 digits c.toNat) : IsSigned ('#' :: x :: '+' :: digits) c

theorem number?_signed {radix value : Nat} {digits : List Char} (hRadix : radix ≤ 16)
    (h : Numeral radix digits value) : Reference.number? radix ('+' :: digits) = some value := by
  have hNotEmpty : digits.isEmpty = false := by
    rw [Bool.eq_false_iff]
    exact fun hEmpty => h.ne_nil (List.isEmpty_iff.mp hEmpty)
  simp only [Reference.number?, hNotEmpty, Bool.false_eq_true, if_false]
  exact digitsValue?_of_numeral hRadix h

/-- A numeral is read as its number, with or without a sign in front, and nothing else
is read as one. -/
theorem number?_eq_some_iff {radix value : Nat} {digits : List Char} (hRadix : radix ≤ 16) :
    Reference.number? radix digits = some value ↔
      Numeral radix digits value ∨
        ∃ unsigned, digits = '+' :: unsigned ∧ Numeral radix unsigned value := by
  have hRead : ∀ {unsigned}, (if unsigned.isEmpty = true then none
      else Text.digitsValue? radix 0 unsigned) = some value → Numeral radix unsigned value := by
    intro unsigned h
    split at h
    · cases h
    · rename_i hEmpty
      exact numeral_of_digitsValue? hRadix (fun hNil => hEmpty (List.isEmpty_iff.mpr hNil)) h
  constructor
  · intro h
    simp only [Reference.number?] at h
    split at h
    · exact .inr ⟨_, rfl, hRead h⟩
    · exact .inl (hRead h)
  · rintro (hDigits | ⟨unsigned, rfl, hDigits⟩)
    · exact number?_of_numeral hRadix hDigits
    · exact number?_signed hRadix hDigits

theorem eq_toNat_of_scalar? {n : Nat} {c : Char} (h : Text.scalar? n = some c) : n = c.toNat := by
  rw [Text.scalar?] at h
  by_cases hValid : n.isValidChar
  · rw [dif_pos hValid] at h
    obtain rfl := Option.some.inj h
    rfl
  · rw [dif_neg hValid] at h
    cases h

/-- A number gives the character whose code point it is. -/
theorem bind_scalar?_eq_some_iff {found : Option Nat} {c : Char} :
    found.bind Text.scalar? = some c ↔ found = some c.toNat := by
  rw [Option.bind_eq_some_iff]
  constructor
  · rintro ⟨value, rfl, hScalar⟩
    rw [eq_toNat_of_scalar? hScalar]
  · rintro rfl
    exact ⟨c.toNat, rfl, scalar?_toNat c⟩

theorem resolve?_of_isSigned {written : List Char} {c : Char} (h : IsSigned written c) :
    Reference.resolve? written = some c := by
  cases h with
  | decimal hDigits =>
      rw [Reference.resolve?, bind_scalar?_eq_some_iff]
      · exact number?_signed (by decide) hDigits
      · exact fun _ hEq => absurd (List.cons.inj hEq).1 (by decide)
      · exact fun _ hEq => absurd (List.cons.inj hEq).1 (by decide)
  | hexadecimal hMark hDigits =>
      rcases hMark with rfl | rfl
      · rw [Reference.resolve?, bind_scalar?_eq_some_iff]
        exact number?_signed (by decide) hDigits
      · rw [Reference.resolve?, bind_scalar?_eq_some_iff]
        exact number?_signed (by decide) hDigits

/-- **What is read as a character is a reference to it**, but for the sign. -/
theorem resolve?_eq_some_iff {written : List Char} {c : Char} :
    Reference.resolve? written = some c ↔ IsReference written c ∨ IsSigned written c := by
  refine ⟨fun h => ?_, fun h => h.elim resolve?_of_isReference resolve?_of_isSigned⟩
  have hHexadecimal : ∀ {x digits}, x = 'x' ∨ x = 'X' →
      (Reference.number? 16 digits).bind Text.scalar? = some c →
      IsReference ('#' :: x :: digits) c ∨ IsSigned ('#' :: x :: digits) c := by
    intro x digits hMark hNumber
    rw [bind_scalar?_eq_some_iff, number?_eq_some_iff (by decide)] at hNumber
    rcases hNumber with hDigits | ⟨unsigned, rfl, hDigits⟩
    · exact .inl (.hexadecimal hMark hDigits)
    · exact .inr (.hexadecimal hMark hDigits)
  unfold Reference.resolve? at h
  split at h
  · obtain rfl := Option.some.inj h
    exact .inl .lt
  · obtain rfl := Option.some.inj h
    exact .inl .gt
  · obtain rfl := Option.some.inj h
    exact .inl .amp
  · obtain rfl := Option.some.inj h
    exact .inl .quot
  · obtain rfl := Option.some.inj h
    exact .inl .apos
  · exact hHexadecimal (.inl rfl) h
  · exact hHexadecimal (.inr rfl) h
  · rw [bind_scalar?_eq_some_iff, number?_eq_some_iff (by decide)] at h
    rcases h with hDigits | ⟨unsigned, rfl, hDigits⟩
    · exact .inl (.decimal hDigits)
    · exact .inr (.decimal hDigits)
  · cases h

/-- No plus sign stands where a reference would have its number. -/
def Unsigned (text : List Char) : Prop :=
  ¬ ['&', '#', '+'] <:+: text ∧ ¬ ['&', '#', 'x', '+'] <:+: text ∧ ¬ ['&', '#', 'X', '+'] <:+: text

instance (text : List Char) : Decidable (Unsigned text) :=
  inferInstanceAs (Decidable (_ ∧ _ ∧ _))

theorem Unsigned.of_infix {part text : List Char} (h : Unsigned text) (hPart : part <:+: text) :
    Unsigned part :=
  ⟨fun hInfix => h.1 (hInfix.trans hPart), fun hInfix => h.2.1 (hInfix.trans hPart),
    fun hInfix => h.2.2 (hInfix.trans hPart)⟩

theorem Unsigned.not_isSigned {written : List Char} {c : Char} (h : Unsigned ('&' :: written)) :
    ¬ IsSigned written c := by
  intro hSigned
  cases hSigned with
  | decimal _ => exact h.1 (List.prefix_append ['&', '#', '+'] _).isInfix
  | hexadecimal hMark _ =>
      rcases hMark with rfl | rfl
      · exact h.2.1 (List.prefix_append ['&', '#', 'x', '+'] _).isInfix
      · exact h.2.2 (List.prefix_append ['&', '#', 'X', '+'] _).isInfix

/-- **What is read as a character is a reference to it** where there are no signs. -/
theorem isReference_of_resolve? {written : List Char} {c : Char} (hSign : Unsigned ('&' :: written))
    (h : Reference.resolve? written = some c) : IsReference written c :=
  (resolve?_eq_some_iff.mp h).resolve_right hSign.not_isSigned

/-! ## Spellings -/

/-- A text is divided at its first semicolon. -/
theorem splitSemicolon_eq_some_iff {s before behind : List Char} :
    Reference.splitSemicolon s = some (before, behind) ↔ s = before ++ ';' :: behind ∧ ';' ∉ before := by
  refine ⟨fun h => ?_, fun ⟨hParts, hNot⟩ => hParts ▸ splitSemicolon_append hNot⟩
  induction s generalizing before with
  | nil => cases h
  | cons c s ih =>
      by_cases hEnd : c = ';'
      · subst hEnd
        cases h
        exact ⟨rfl, List.not_mem_nil⟩
      · rw [Reference.splitSemicolon] at h
        · obtain ⟨⟨front, back⟩, hSplit, hEq⟩ := Option.map_eq_some_iff.mp h
          cases hEq
          obtain ⟨rfl, hNot⟩ := ih hSplit
          refine ⟨rfl, ?_⟩
          rw [List.mem_cons, not_or]
          exact ⟨fun hEq => hEnd hEq.symm, hNot⟩
        · exact hEnd

/-- **What is read without a fault is a spelling**, of a text without signs all of
whose characters are legal but for the ampersands. -/
theorem spells_of_decode {legal : Char → Prop} {written text : List Char}
    (hSign : Unsigned written) (hLegal : ∀ c ∈ written, c ≠ '&' → legal c)
    (h : Reference.decode written = .ok text) : Spells legal written text := by
  induction written using Reference.decode.induct generalizing text with
  | case1 =>
      rw [Reference.decode] at h
      cases h
      exact .nil
  | case2 rest hSplit =>
      rw [decode_unended hSplit] at h
      cases h
  | case3 rest inside behind hSplit hResolve =>
      rw [decode_ended hSplit, hResolve] at h
      cases h
  | case4 rest inside behind hSplit c hResolve _ ih =>
      rw [decode_ended hSplit, hResolve] at h
      obtain ⟨tail, hTail, rfl⟩ := exists_of_map_ok h
      obtain ⟨rfl, -⟩ := splitSemicolon_eq_some_iff.mp hSplit
      have hInside : '&' :: inside <:+: '&' :: (inside ++ ';' :: behind) :=
        (List.prefix_append ('&' :: inside) _).isInfix
      have hBehind : behind <:+ '&' :: (inside ++ ';' :: behind) :=
        ⟨'&' :: (inside ++ [';']), by simp⟩
      refine .reference (isReference_of_resolve? (hSign.of_infix hInside) hResolve) ?_
      exact ih (hSign.of_infix hBehind.isInfix) (fun c hMem => hLegal c (hBehind.mem hMem)) hTail
  | case5 c rest hRaw ih =>
      rw [decode_raw hRaw] at h
      obtain ⟨tail, hTail, rfl⟩ := exists_of_map_ok h
      have hRest : rest <:+ c :: rest := List.suffix_cons c rest
      refine .raw (hLegal c List.mem_cons_self hRaw) ?_
      exact ih (hSign.of_infix hRest.isInfix) (fun c hMem => hLegal c (hRest.mem hMem)) hTail

end LiveMarkup.Markup
