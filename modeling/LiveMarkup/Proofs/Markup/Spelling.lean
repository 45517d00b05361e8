import LiveMarkup.Markup.Reference
import Mathlib.Tactic.IntervalCases

/-!
# How characters may be spelled

A character of a value or of character data is written as itself, where that is
legal, or as a reference: by one of the five names, or by its code point in
decimal or hexadecimal digits, with zeros in front and in letters of either
case. `Spells` says so of a whole text, without looking at how references are
read.

## Main results

* `digitsValue?_of_numeral` — a numeral is read as its value.
* `resolve?_of_isReference` — a reference is read as its character.
* `exists_spells` — every text has a spelling.
* `decode_of_spells` — **a spelling is read as the text that it spells**.
-/

namespace LiveMarkup.Markup

/-! ## Numerals -/

/-- The digit, in either case, that stands for a number below the radix. -/
def IsDigit (radix : Nat) (c : Char) (value : Nat) : Prop :=
  value < radix ∧ (c = value.digitChar ∨ c = value.digitChar.toUpper)

/-- Digits with the number that they stand for, zeros in front allowed. -/
inductive Numeral (radix : Nat) : List Char → Nat → Prop where
  | digit {c : Char} {value : Nat} (hDigit : IsDigit radix c value) : Numeral radix [c] value
  | more {front : List Char} {c : Char} {high low : Nat} (hFront : Numeral radix front high)
      (hDigit : IsDigit radix c low) : Numeral radix (front ++ [c]) (high * radix + low)

theorem exists_numeral {radix : Nat} (hRadix : 2 ≤ radix) (value : Nat) :
    ∃ digits, Numeral radix digits value := by
  induction value using Nat.strongRecOn with
  | ind value ih =>
      by_cases hSmall : value < radix
      · exact ⟨[value.digitChar], .digit ⟨hSmall, .inl rfl⟩⟩
      · have hHigh : value / radix < value := Nat.div_lt_self (by omega) hRadix
        obtain ⟨front, hFront⟩ := ih (value / radix) hHigh
        have hLow : value % radix < radix := Nat.mod_lt _ (by omega)
        have hBoth := hFront.more ⟨hLow, .inl rfl⟩
        rw [Nat.div_add_mod'] at hBoth
        exact ⟨_, hBoth⟩

theorem digitValue?_of_isDigit {radix value : Nat} {c : Char} (hRadix : radix ≤ 16)
    (h : IsDigit radix c value) : Text.digitValue? radix c = some value := by
  obtain ⟨hLt, hChar⟩ := h
  have hRead : ∀ digit < 16, ∀ c, c = digit.digitChar ∨ c = digit.digitChar.toUpper →
      (if '0' ≤ c && c ≤ '9' then some (c.toNat - '0'.toNat)
        else if 'a' ≤ c && c ≤ 'z' then some (c.toNat - 'a'.toNat + 10)
        else if 'A' ≤ c && c ≤ 'Z' then some (c.toNat - 'A'.toNat + 10)
        else none) = some digit := by
    intro digit hDigit c hEither
    rcases hEither with rfl | rfl <;> interval_cases digit <;> decide
  simp only [Text.digitValue?]
  rw [hRead value (by omega) c hChar]
  simp [Option.filter, hLt]

/-- A digit is a letter or a decimal digit. -/
theorem isAlphanum_of_isDigit {radix value : Nat} {c : Char} (hRadix : radix ≤ 16)
    (h : IsDigit radix c value) : c.isAlphanum = true := by
  obtain ⟨hLt, hChar⟩ := h
  have hValue : value < 16 := by omega
  rcases hChar with rfl | rfl <;> interval_cases value <;> decide

/-- A decimal digit is no letter. -/
theorem isDigit_of_isDigit {value : Nat} {c : Char} (h : IsDigit 10 c value) :
    c.isDigit = true := by
  obtain ⟨hLt, hChar⟩ := h
  rcases hChar with rfl | rfl <;> interval_cases value <;> decide

theorem digitsValue?_append (radix high : Nat) (front back : List Char) :
    Text.digitsValue? radix high (front ++ back) =
      (Text.digitsValue? radix high front).bind fun value =>
        Text.digitsValue? radix value back := by
  induction front generalizing high with
  | nil => rfl
  | cons c rest ih =>
      rw [List.cons_append, Text.digitsValue?, Text.digitsValue?]
      cases Text.digitValue? radix c with
      | none => rfl
      | some digit => exact ih _

/-- **A numeral is read as its value.** -/
theorem digitsValue?_of_numeral {radix value : Nat} {digits : List Char} (hRadix : radix ≤ 16)
    (h : Numeral radix digits value) : Text.digitsValue? radix 0 digits = some value := by
  induction h with
  | digit hDigit =>
      rw [Text.digitsValue?, digitValue?_of_isDigit hRadix hDigit]
      simp [Text.digitsValue?]
  | more _ hDigit ih =>
      rw [digitsValue?_append, ih, Option.bind_some, Text.digitsValue?,
        digitValue?_of_isDigit hRadix hDigit]
      rfl

theorem Numeral.ne_nil {radix value : Nat} {digits : List Char} (h : Numeral radix digits value) :
    digits ≠ [] := by
  cases h <;> simp

/-- A numeral has digits only. -/
theorem Numeral.isDigit {radix value : Nat} {digits : List Char} (h : Numeral radix digits value)
    {c : Char} (hMem : c ∈ digits) : ∃ digit, IsDigit radix c digit := by
  induction h with
  | digit hDigit =>
      obtain rfl := List.mem_singleton.mp hMem
      exact ⟨_, hDigit⟩
  | more _ hDigit ih =>
      rcases List.mem_append.mp hMem with hFront | hLast
      · exact ih hFront
      · obtain rfl := List.mem_singleton.mp hLast
        exact ⟨_, hDigit⟩

theorem Numeral.isAlphanum {radix value : Nat} {digits : List Char} (hRadix : radix ≤ 16)
    (h : Numeral radix digits value) {c : Char} (hMem : c ∈ digits) : c.isAlphanum = true := by
  obtain ⟨digit, hDigit⟩ := h.isDigit hMem
  exact isAlphanum_of_isDigit hRadix hDigit

/-! ## References -/

/-- What stands between the ampersand and the semicolon of a reference to a character. -/
inductive IsReference : List Char → Char → Prop where
  | lt : IsReference ['l', 't'] '<'
  | gt : IsReference ['g', 't'] '>'
  | amp : IsReference ['a', 'm', 'p'] '&'
  | quot : IsReference ['q', 'u', 'o', 't'] '"'
  | apos : IsReference ['a', 'p', 'o', 's'] '\''
  | decimal {digits : List Char} {c : Char} (hDigits : Numeral 10 digits c.toNat) :
      IsReference ('#' :: digits) c
  | hexadecimal {x c : Char} {digits : List Char} (hMark : x = 'x' ∨ x = 'X')
      (hDigits : Numeral 16 digits c.toNat) : IsReference ('#' :: x :: digits) c

theorem scalar?_toNat (c : Char) : Text.scalar? c.toNat = some c := by
  have hValid : c.toNat.isValidChar := c.valid
  rw [Text.scalar?, dif_pos hValid, Option.some.injEq]
  have hChar := Char.ofNat_toNat c
  rw [Char.ofNat, dif_pos hValid] at hChar
  exact hChar

/-- Digits are read as a number; there is no sign to take away. -/
theorem number?_of_numeral {radix value : Nat} {digits : List Char} (hRadix : radix ≤ 16)
    (h : Numeral radix digits value) : Reference.number? radix digits = some value := by
  have hRead := digitsValue?_of_numeral hRadix h
  cases digits with
  | nil => exact absurd rfl h.ne_nil
  | cons c rest =>
      have hPlus : c ≠ '+' := by
        rintro rfl
        have hAlphanum := h.isAlphanum hRadix List.mem_cons_self
        exact absurd hAlphanum (by decide)
      simp only [Reference.number?]
      split
      · rename_i hEq
        exact absurd (List.cons.inj hEq).1 hPlus
      · exact hRead

/-- **A reference is read as its character.** -/
theorem resolve?_of_isReference {written : List Char} {c : Char} (h : IsReference written c) :
    Reference.resolve? written = some c := by
  cases h with
  | lt => rfl
  | gt => rfl
  | amp => rfl
  | quot => rfl
  | apos => rfl
  | decimal hDigits =>
      rename_i digits
      have hNumber := number?_of_numeral (by omega) hDigits
      cases digits with
      | nil => exact absurd rfl hDigits.ne_nil
      | cons first rest =>
          obtain ⟨digit, hDigit⟩ := hDigits.isDigit List.mem_cons_self
          have hFirst := isDigit_of_isDigit hDigit
          have hx : first ≠ 'x' := by rintro rfl; exact absurd hFirst (by decide)
          have hX : first ≠ 'X' := by rintro rfl; exact absurd hFirst (by decide)
          rw [Reference.resolve?, hNumber, Option.bind_some, scalar?_toNat]
          · exact fun _ hEq => hx (List.cons.inj hEq).1
          · exact fun _ hEq => hX (List.cons.inj hEq).1
  | hexadecimal hMark hDigits =>
      have hNumber := number?_of_numeral (by omega) hDigits
      rcases hMark with rfl | rfl
      · rw [Reference.resolve?, hNumber, Option.bind_some, scalar?_toNat]
      · rw [Reference.resolve?, hNumber, Option.bind_some, scalar?_toNat]

/-- The characters of a reference are letters and digits, but for the number sign. -/
theorem IsReference.isAlphanum {written : List Char} {c : Char} (h : IsReference written c)
    {other : Char} (hMem : other ∈ written) : other = '#' ∨ other.isAlphanum = true := by
  cases h with
  | decimal hDigits =>
      rcases List.mem_cons.mp hMem with rfl | hMem
      · exact .inl rfl
      · exact .inr (hDigits.isAlphanum (by omega) hMem)
  | hexadecimal hMark hDigits =>
      rcases List.mem_cons.mp hMem with rfl | hMem
      · exact .inl rfl
      · rcases List.mem_cons.mp hMem with rfl | hMem
        · rcases hMark with rfl | rfl <;> exact .inr (by decide)
        · exact .inr (hDigits.isAlphanum (by omega) hMem)
  | _ =>
      refine .inr ?_
      simp only [List.mem_cons, List.not_mem_nil, or_false] at hMem
      rcases hMem with rfl | rfl | rfl | rfl <;> decide

/-! ## Spellings -/

/-- A text, and a way to write it: characters in `legal` as themselves, and any
characters as references. -/
inductive Spells (legal : Char → Prop) : List Char → List Char → Prop where
  | nil : Spells legal [] []
  | raw {c : Char} {written text : List Char} (hLegal : legal c) (hRest : Spells legal written text) :
      Spells legal (c :: written) (c :: text)
  | reference {c : Char} {inside written text : List Char} (hInside : IsReference inside c)
      (hRest : Spells legal written text) :
      Spells legal ('&' :: (inside ++ ';' :: written)) (c :: text)

/-- Every text can be spelled, whatever is legal as it stands. -/
theorem exists_spells (legal : Char → Prop) (text : List Char) :
    ∃ written, Spells legal written text := by
  induction text with
  | nil => exact ⟨[], .nil⟩
  | cons c text ih =>
      obtain ⟨written, hWritten⟩ := ih
      obtain ⟨digits, hDigits⟩ := exists_numeral (by decide : 2 ≤ 10) c.toNat
      exact ⟨_, .reference (.decimal hDigits) hWritten⟩

theorem splitSemicolon_append {inside rest : List Char} (h : ';' ∉ inside) :
    Reference.splitSemicolon (inside ++ ';' :: rest) = some (inside, rest) := by
  induction inside with
  | nil => rfl
  | cons c inside ih =>
      rw [List.mem_cons, not_or] at h
      rw [List.cons_append, Reference.splitSemicolon, ih h.2]
      · rfl
      · exact fun hEq => h.1 hEq.symm

theorem decode_raw {c : Char} (hRaw : c ≠ '&') (rest : List Char) :
    Reference.decode (c :: rest) = (Reference.decode rest).map (c :: ·) := by
  rw [Reference.decode]
  · cases Reference.decode rest <;> rfl
  · exact fun hEq => hRaw hEq

theorem decode_unended {rest : List Char} (h : Reference.splitSemicolon rest = none) :
    Reference.decode ('&' :: rest) = .error (rest.take 8) := by
  rw [Reference.decode]
  split
  · rfl
  · rename_i hSome
    rw [h] at hSome
    cases hSome

theorem decode_ended {rest inside behind : List Char}
    (h : Reference.splitSemicolon rest = some (inside, behind)) :
    Reference.decode ('&' :: rest) =
      match Reference.resolve? inside with
      | none => .error inside
      | some c => (Reference.decode behind).map (c :: ·) := by
  rw [Reference.decode]
  split
  · rename_i hNone
    rw [h] at hNone
    cases hNone
  · rename_i hSome
    rw [h] at hSome
    cases hSome
    cases Reference.resolve? inside with
    | none => rfl
    | some c => cases Reference.decode behind <;> rfl

theorem decode_reference {inside : List Char} {c : Char} (h : IsReference inside c)
    (rest : List Char) :
    Reference.decode ('&' :: (inside ++ ';' :: rest)) = (Reference.decode rest).map (c :: ·) := by
  have hInside : ';' ∉ inside := by
    intro hMem
    rcases h.isAlphanum hMem with hEq | hAlphanum
    · exact absurd hEq (by decide)
    · exact absurd hAlphanum (by decide)
  rw [decode_ended (splitSemicolon_append hInside), resolve?_of_isReference h]

/-- **A spelling is read as the text that it spells.** -/
theorem decode_of_spells {legal : Char → Prop} (hAmp : ¬ legal '&') {written text : List Char}
    (h : Spells legal written text) : Reference.decode written = .ok text := by
  induction h with
  | nil => rw [Reference.decode]
  | raw hLegal _ ih =>
      rw [decode_raw (fun hEq => hAmp (hEq ▸ hLegal)), ih]
      rfl
  | reference hInside _ ih =>
      rw [decode_reference hInside, ih]
      rfl

/-- What is written in a spelling is legal as it stands, or belongs to a reference. -/
theorem Spells.mem {legal : Char → Prop} {written text : List Char} (h : Spells legal written text)
    {c : Char} (hMem : c ∈ written) :
    legal c ∨ c = '&' ∨ c = ';' ∨ c = '#' ∨ c.isAlphanum = true := by
  induction h with
  | nil => cases hMem
  | raw hLegal _ ih =>
      rcases List.mem_cons.mp hMem with rfl | hMem
      · exact .inl hLegal
      · exact ih hMem
  | reference hInside _ ih =>
      rcases List.mem_cons.mp hMem with rfl | hMem
      · exact .inr (.inl rfl)
      · rcases List.mem_append.mp hMem with hMem | hMem
        · exact .inr (.inr (.inr (hInside.isAlphanum hMem)))
        · rcases List.mem_cons.mp hMem with rfl | hMem
          · exact .inr (.inr (.inl rfl))
          · exact ih hMem

end LiveMarkup.Markup
