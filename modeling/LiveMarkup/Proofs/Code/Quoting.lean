import LiveMarkup.Proofs.Code.TextValue
import LiveMarkup.Proofs.Markup.Spelling
import LiveMarkup.Text.Escaped

/-!
# Quoted texts are sealed

A text can be quoted in many ways: a character stands for itself, or in one of
several escapes. `Quotes` says which ways there are, without looking at how
literals are read; that a character is a control, a quote or a backslash is the
only reason that it needs an escape. Whatever is quoted in one of these ways is
read back, and nothing behind its last quote is read as a part of it.

The form in which texts are quoted in generated code is one of the ways. It writes
more characters by their code points than it has to, so nothing here depends on
which they are.

## Main results

* `codePoint?_of_numeral` — a code point in hexadecimal digits is read as its value.
* `escaped?_of_isEscape` — an escape is read as its character.
* `textValue?_of_quotes` — **what is quoted is read back**.
* `quotes_escapeLiteral` — generated code quotes its texts.
* `literal_sealed` — **a quoted text cannot be escaped from**.
-/

namespace LiveMarkup.Code

open Markup (IsDigit Numeral digitValue?_of_isDigit isAlphanum_of_isDigit digitsValue?_of_numeral
  scalar?_toNat)
open Text (hexDigit hexadecimal escapeChar escapeLiteral isConcealed literal unseenRanges)

/-! ## Controls -/

/-- Whether `c` is a control character, of the general category Cc. -/
def isControl (c : Char) : Bool :=
  c.toNat < 0x20 || 0x7f ≤ c.toNat && c.toNat < 0xa0

theorem isControl_of_isAlphanum {c : Char} (h : c.isAlphanum = true) : isControl c = false := by
  have hCode : 48 ≤ c.toNat ∧ c.toNat ≤ 122 := by
    have hClasses : c.isAlphanum = (c.isUpper || c.isLower || c.isDigit) := rfl
    have hUpper : c.isUpper = decide (65 ≤ c.toNat ∧ c.toNat ≤ 90) := rfl
    have hLower : c.isLower = (decide (97 ≤ c.toNat) && decide (c.toNat ≤ 122)) := rfl
    have hDigit : c.isDigit = (decide (48 ≤ c.toNat) && decide (c.toNat ≤ 57)) := rfl
    rw [hClasses, hUpper, hLower, hDigit] at h
    simp only [Bool.or_eq_true, Bool.and_eq_true, decide_eq_true_eq] at h
    omega
  simp only [isControl, Bool.or_eq_false_iff, Bool.and_eq_false_iff, decide_eq_false_iff_not]
  omega

/-- Controls show nothing, so they are written by their code points. -/
theorem isConcealed_of_isControl {c : Char} (h : isControl c = true) : isConcealed c = true := by
  obtain ⟨rest, hTable⟩ : ∃ rest, unseenRanges = (0x0, 0x1f) :: (0x7f, 0xa0) :: rest := ⟨_, rfl⟩
  have hSpace : c ≠ ' ' := by
    rintro rfl
    exact absurd h (by decide)
  have hUnseen : unseenRanges.contains c.toNat = true := by
    simp only [isControl, Bool.or_eq_true, Bool.and_eq_true, decide_eq_true_eq] at h
    rw [hTable, Text.Ranges.contains, Text.Ranges.contains]
    grind
  simp [isConcealed, hUnseen, hSpace]

/-! ## Ways to quote -/

/-- What stands behind the backslash in an escape for a character. -/
inductive IsEscape : List Char → Char → Prop where
  | nul : IsEscape ['0'] '\x00'
  | tab : IsEscape ['t'] '\t'
  | feed : IsEscape ['n'] '\n'
  | carriage : IsEscape ['r'] '\r'
  | slash : IsEscape ['\\'] '\\'
  | apostrophe : IsEscape ['\''] '\''
  | quote : IsEscape ['"'] '"'
  | byte {a b c : Char} (hDigits : Numeral 16 [a, b] c.toNat) (hAscii : c.toNat < 0x80) :
      IsEscape ['x', a, b] c
  | point {digits : List Char} {c : Char} (hDigits : Numeral 16 digits c.toNat)
      (hLength : digits.length ≤ 6) : IsEscape ('u' :: '\x7b' :: (digits ++ ['\x7d'])) c

/-- Whether `c` stands for itself between quotes. -/
def IsBare (c : Char) : Prop :=
  c ≠ '"' ∧ c ≠ '\\' ∧ isControl c = false

instance (c : Char) : Decidable (IsBare c) :=
  inferInstanceAs (Decidable (c ≠ '"' ∧ c ≠ '\\' ∧ isControl c = false))

/-- What stands between quotes, and the text that is quoted. -/
inductive Quotes : List Char → List Char → Prop where
  | nil : Quotes [] []
  | bare {c : Char} {body text : List Char} (hBare : IsBare c) (hRest : Quotes body text) :
      Quotes (c :: body) (c :: text)
  | escape {c : Char} {inside body text : List Char} (hInside : IsEscape inside c)
      (hRest : Quotes body text) : Quotes ('\\' :: (inside ++ body)) (c :: text)

theorem Quotes.append {front back text tail : List Char} (hFront : Quotes front text)
    (hBack : Quotes back tail) : Quotes (front ++ back) (text ++ tail) := by
  induction hFront with
  | nil => exact hBack
  | bare hBare _ ih => exact .bare hBare ih
  | escape hInside _ ih =>
      rw [List.cons_append, List.cons_append, List.append_assoc]
      exact .escape hInside ih

/-- No fewer characters stand between the quotes than are quoted. -/
theorem Quotes.length_le {body text : List Char} (h : Quotes body text) :
    text.length ≤ body.length := by
  induction h with
  | nil => exact Nat.le_refl 0
  | bare _ _ ih => exact Nat.succ_le_succ ih
  | escape _ _ ih =>
      rw [List.length_cons, List.length_cons, List.length_append]
      omega

/-! ## Reading back -/

/-- A digit goes on with a code point, if there are not six already. -/
theorem codePoint?_of_isDigit {c : Char} {digit count : Nat} (hDigit : IsDigit 16 c digit)
    (hCount : count < 6) (value : Nat) (rest : List Char) :
    codePoint? value count (c :: rest) = codePoint? (value * 16 + digit) (count + 1) rest := by
  have hAlphanum := isAlphanum_of_isDigit (Nat.le_refl 16) hDigit
  have hNot : count ≠ 6 := Nat.ne_of_lt hCount
  rw [codePoint?, digitValue?_of_isDigit (Nat.le_refl 16) hDigit]
  · simp only [hNot, if_false]
  · rintro rfl
    exact absurd hAlphanum (by decide)
  · rintro rfl
    exact absurd hAlphanum (by decide)

/-- **A code point in hexadecimal digits is read as its value**, up to six of them. -/
theorem codePoint?_of_numeral {digits : List Char} {n : Nat} (h : Numeral 16 digits n)
    (value count : Nat) (rest : List Char) (hCount : count + digits.length ≤ 6) :
    codePoint? value count (digits ++ rest) =
      codePoint? (value * 16 ^ digits.length + n) (count + digits.length) rest := by
  induction h generalizing rest with
  | digit hDigit =>
      rw [List.length_singleton] at hCount
      rw [List.singleton_append, codePoint?_of_isDigit hDigit hCount, List.length_singleton,
        Nat.pow_one]
  | more _ hDigit ih =>
      rw [List.length_append, List.length_singleton] at hCount
      rw [List.append_assoc, ih _ (by omega), List.singleton_append,
        codePoint?_of_isDigit hDigit (by omega), List.length_append, List.length_singleton]
      congr 1
      rw [Nat.add_mul, Nat.mul_assoc, Nat.pow_succ, Nat.add_assoc]

/-- **An escape is read as its character.** -/
theorem escaped?_of_isEscape {inside : List Char} {c : Char} (h : IsEscape inside c)
    (rest : List Char) : escaped? (inside ++ rest) = some (c, rest) := by
  cases h with
  | byte hDigits hAscii =>
      have hValue := digitsValue?_of_numeral (Nat.le_refl 16) hDigits
      show escaped? ('x' :: _ :: _ :: rest) = _
      rw [escaped?, hValue, Option.filter_some, if_pos (by simpa using hAscii), Option.map_some,
        Char.ofNat_toNat]
  | @point digits c hDigits hLength =>
      have hSome : 0 + digits.length ≠ 0 := by
        rw [Nat.zero_add, Ne, List.length_eq_zero_iff]
        exact hDigits.ne_nil
      rw [List.cons_append, List.cons_append, List.append_assoc, List.singleton_append, escaped?,
        codePoint?_of_numeral hDigits 0 0 _ (by omega), codePoint?, if_neg hSome, Nat.zero_mul,
        Nat.zero_add, scalar?_toNat]
      rfl
  | _ => rfl

/-- A backslash with an escape behind it is read as its character. -/
theorem textValue?_escape {inside : List Char} {c : Char} (h : IsEscape inside c) (limit : Nat)
    (rest : List Char) : textValue? (limit + 1) ('\\' :: (inside ++ rest)) =
      (textValue? limit rest).map fun read => (c :: read.1, read.2) := by
  have hRead := escaped?_of_isEscape h rest
  have hNoBreak : ∀ tail, inside ++ rest = '\n' :: tail ∨ inside ++ rest = '\r' :: tail → False := by
    rintro tail (hEq | hEq) <;> rw [hEq] at hRead <;> cases hRead
  rw [textValue?, hRead, Option.bind_some]
  · exact fun tail hEq => hNoBreak tail (.inl hEq)
  · exact fun tail hEq => hNoBreak tail (.inr hEq)

/-- A character that stands for itself is read as itself. -/
theorem textValue?_bare {c : Char} (h : IsBare c) (limit : Nat) (rest : List Char) :
    textValue? (limit + 1) (c :: rest) =
      (textValue? limit rest).map fun read => (c :: read.1, read.2) := by
  obtain ⟨hQuote, hSlash, hControl⟩ := h
  have hReturn : c ≠ '\r' := by
    rintro rfl
    exact absurd hControl (by decide)
  rw [textValue?]
  all_goals simp_all

/-- **What is quoted is read back**, up to the quote that ends it. -/
theorem textValue?_of_quotes {body text : List Char} (h : Quotes body text) {limit : Nat}
    (hLimit : text.length < limit) (rest : List Char) :
    textValue? limit (body ++ '"' :: rest) = some (text, rest) := by
  induction h generalizing limit with
  | nil =>
      obtain ⟨fewer, rfl⟩ := Nat.exists_eq_succ_of_ne_zero (Nat.ne_of_gt hLimit)
      rfl
  | bare hBare _ ih =>
      obtain ⟨fewer, rfl⟩ := Nat.exists_eq_succ_of_ne_zero (Nat.ne_zero_of_lt hLimit)
      rw [List.cons_append, textValue?_bare hBare, ih (Nat.lt_of_succ_lt_succ hLimit)]
      rfl
  | escape hInside _ ih =>
      obtain ⟨fewer, rfl⟩ := Nat.exists_eq_succ_of_ne_zero (Nat.ne_zero_of_lt hLimit)
      rw [List.cons_append, List.append_assoc, textValue?_escape hInside,
        ih (Nat.lt_of_succ_lt_succ hLimit)]
      rfl

/-! ## No controls -/

theorem IsEscape.not_isControl {inside : List Char} {c : Char} (h : IsEscape inside c) {other : Char}
    (hMem : other ∈ inside) : isControl other = false := by
  cases h with
  | byte hDigits _ =>
      rcases List.mem_cons.mp hMem with rfl | hMem
      · decide
      · exact isControl_of_isAlphanum (hDigits.isAlphanum (Nat.le_refl 16) hMem)
  | point hDigits _ =>
      simp only [List.mem_cons, List.mem_append, List.not_mem_nil, or_false] at hMem
      rcases hMem with rfl | rfl | hMem | rfl
      · decide
      · decide
      · exact isControl_of_isAlphanum (hDigits.isAlphanum (Nat.le_refl 16) hMem)
      · decide
  | _ =>
      obtain rfl := List.mem_singleton.mp hMem
      decide

/-- No control stands between the quotes. -/
theorem Quotes.not_isControl {body text : List Char} (h : Quotes body text) {c : Char}
    (hMem : c ∈ body) : isControl c = false := by
  induction h with
  | nil => cases hMem
  | bare hBare _ ih =>
      rcases List.mem_cons.mp hMem with rfl | hMem
      · exact hBare.2.2
      · exact ih hMem
  | escape hInside _ ih =>
      rcases List.mem_cons.mp hMem with rfl | hMem
      · decide
      · rcases List.mem_append.mp hMem with hMem | hMem
        · exact hInside.not_isControl hMem
        · exact ih hMem

/-! ## Generated code -/

theorem isDigit_hexDigit {d : Nat} (h : d < 16) : IsDigit 16 (hexDigit d) d := by
  have hDigit : ∀ d < 16, hexDigit d = d.digitChar := by decide
  exact ⟨h, .inl (hDigit d h)⟩

theorem numeral_hexadecimal (n : Nat) : Numeral 16 (hexadecimal n) n := by
  fun_induction hexadecimal n with
  | case1 n hSmall => exact .digit (isDigit_hexDigit hSmall)
  | case2 n hLarge ih =>
      have hBoth := ih.more (isDigit_hexDigit (Nat.mod_lt n (by decide)))
      rwa [Nat.div_add_mod'] at hBoth

/-- A number below a power of sixteen has no more digits than that. -/
theorem length_hexadecimal_le {n k : Nat} (h : n < 16 ^ (k + 1)) :
    (hexadecimal n).length ≤ k + 1 := by
  induction k generalizing n with
  | zero =>
      rw [hexadecimal, if_pos (by simpa using h)]
      simp
  | succ k ih =>
      rw [hexadecimal]
      split
      · simp
      · have hHigh : n / 16 < 16 ^ (k + 1) := by
          rw [Nat.div_lt_iff_lt_mul (by decide)]
          rwa [Nat.pow_succ] at h
        have hLength := ih hHigh
        rw [List.length_append, List.length_singleton]
        omega

/-- The code point of a character has at most six digits. -/
theorem length_hexadecimal_toNat (c : Char) : (hexadecimal c.toNat).length ≤ 6 := by
  have hBound : c.toNat < 0x110000 := by
    rcases c.valid with h | h
    · exact Nat.lt_trans h (by decide)
    · exact h.2
  exact length_hexadecimal_le (k := 5) (Nat.lt_trans hBound (by decide))

/-- The code point of a character in curly brackets is an escape for it. -/
theorem isEscape_hexadecimal (c : Char) :
    IsEscape ('u' :: '\x7b' :: (hexadecimal c.toNat ++ ['\x7d'])) c :=
  .point (numeral_hexadecimal c.toNat) (length_hexadecimal_toNat c)

theorem quotes_escapeChar (c : Char) : Quotes (escapeChar c) [c] := by
  unfold escapeChar
  split
  · exact .escape .tab .nil
  · exact .escape .carriage .nil
  · exact .escape .feed .nil
  · exact .escape .quote .nil
  · exact .escape .slash .nil
  · rename_i hTab hReturn hFeed hQuote hSlash
    split
    · have hPoint := Quotes.escape (isEscape_hexadecimal c) .nil
      rwa [List.append_nil] at hPoint
    · rename_i hShown
      have hControl : isControl c = false :=
        Bool.eq_false_iff.mpr fun h => hShown (isConcealed_of_isControl h)
      exact .bare ⟨hQuote, hSlash, hControl⟩ .nil

/-- Two digits with the number that they stand for. -/
theorem numeral_pair {a b : Char} {high low value : Nat} (hHigh : IsDigit 16 a high)
    (hLow : IsDigit 16 b low) (hValue : high * 16 + low = value) : Numeral 16 [a, b] value :=
  hValue ▸ Numeral.more (.digit hHigh) hLow

/-- Either form of NUL is an escape for it. -/
theorem quotes_nul (rest : List Char) :
    Quotes (if Text.beginsOctal rest then ['\\', 'x', '0', '0'] else ['\\', '0']) ['\x00'] := by
  split
  · have hZero : IsDigit 16 '0' 0 := ⟨by decide, .inl rfl⟩
    exact .escape (.byte (numeral_pair hZero hZero rfl) (by decide)) .nil
  · exact .escape .nul .nil

/-- **Generated code quotes its texts.** -/
theorem quotes_escapeLiteral (s : List Char) : Quotes (escapeLiteral s) s := by
  induction s with
  | nil => exact .nil
  | cons c rest ih =>
      rw [escapeLiteral]
      split
      · rename_i hNul
        subst hNul
        exact (quotes_nul rest).append ih
      · exact (quotes_escapeChar c).append ih

/-! ## Sealed texts -/

/-- A literal ends where it should and is read as what it should, whatever follows it,
and shows no control. -/
structure Sealed (written : List Char) (s : String) : Prop where
  /-- Whoever asks for its value gets the text, and goes on behind the literal. -/
  read : ∀ rest, stringLiteral? (written ++ rest) = some (s, rest)
  /-- Whoever asks for tokens goes on there too; a word at that place is a suffix. -/
  token : ∀ rest, literal? (written ++ rest) = some (.text, behindSuffix rest)
  visible : ∀ c ∈ written, isControl c = false

theorem quoted_append (body rest : List Char) :
    '"' :: body ++ ['"'] ++ rest = '"' :: (body ++ '"' :: rest) := by
  simp

/-- **What is quoted is sealed.** -/
theorem Quotes.isSealed {body : List Char} {s : String} (h : Quotes body s.toList) :
    Sealed ('"' :: body ++ ['"']) s := by
  have hRead : ∀ rest, textValue? ((body ++ '"' :: rest).length + 1) (body ++ '"' :: rest) =
      some (s.toList, rest) := by
    intro rest
    refine textValue?_of_quotes h ?_ rest
    have hLength := h.length_le
    rw [List.length_append]
    omega
  constructor
  case read =>
      intro rest
      rw [quoted_append, stringLiteral?, hRead rest, Option.map_some]
      exact congrArg (fun value => some (value, rest)) String.ofList_toList
  case token =>
      intro rest
      rw [quoted_append, literal?]
      simp only [quoted?]
      rw [behindText_eq, hRead rest]
      rfl
  case visible =>
      intro c hMem
      simp only [List.mem_cons, List.mem_append, List.not_mem_nil, or_false] at hMem
      rcases hMem with (rfl | hMem) | rfl
      · decide
      · exact h.not_isControl hMem
      · decide

theorem toList_literal (s : String) : (literal s).toList = '"' :: escapeLiteral s.toList ++ ['"'] :=
  String.toList_ofList

/-- **A quoted text is read back**, whatever follows it. -/
theorem stringLiteral?_literal (s : String) (rest : List Char) :
    stringLiteral? ((literal s).toList ++ rest) = some (s, rest) := by
  rw [toList_literal]
  exact (quotes_escapeLiteral s.toList).isSealed.read rest

/-- **A quoted text stands on one line.** -/
theorem line_feed_not_mem_literal (s : String) : '\n' ∉ (literal s).toList := by
  intro hMem
  rw [toList_literal] at hMem
  exact absurd ((quotes_escapeLiteral s.toList).isSealed.visible '\n' hMem) (by decide)

/-- **A quoted text cannot be escaped from.** A reader that comes to the literal for any
text, with anything behind it, takes exactly the literal and gets the text back, and no
line feed, carriage return or other control stands in it. So it is with every other way
to quote the text, whichever characters are written by their code points: that controls
are, or have an escape of their own, is all it takes. -/
theorem literal_sealed (s : String) :
    Sealed (literal s).toList s ∧
      ∀ body, Quotes body s.toList → Sealed ('"' :: body ++ ['"']) s := by
  refine ⟨?_, fun body h => h.isSealed⟩
  rw [toList_literal]
  exact (quotes_escapeLiteral s.toList).isSealed

/-- NUL in front of a digit, a quote behind a backslash, a line feed and a letter beyond
ASCII: as they are written in generated code, and with more escapes than that needs. -/
theorem literal_sealed_nul :
    let s := "\x007\\\"\n\u00e9"
    let body := ['\\', 'u', '\x7b', '0', '0', '\x7d', '7', '\\', 'x', '5', 'C', '\\', '"', '\\', 'n',
      '\\', 'u', '\x7b', 'e', '9', '\x7d']
    (literal s).toList = "\"\\x007\\\\\\\"\\n\u00e9\"".toList ∧ Sealed (literal s).toList s ∧
      Quotes body s.toList ∧ Sealed ('"' :: body ++ ['"']) s := by
  intro s body
  have hZero : IsDigit 16 '0' 0 := ⟨by decide, .inl rfl⟩
  have hNul : IsEscape ['u', '\x7b', '0', '0', '\x7d'] '\x00' :=
    .point (numeral_pair hZero hZero rfl) (by decide)
  have hFive : IsDigit 16 '5' 5 := ⟨by decide, .inl rfl⟩
  have hTwelve : IsDigit 16 'C' 12 := ⟨by decide, .inr rfl⟩
  have hSlash : IsEscape ['x', '5', 'C'] '\\' :=
    .byte (numeral_pair hFive hTwelve rfl) (by decide)
  have hFourteen : IsDigit 16 'e' 14 := ⟨by decide, .inl rfl⟩
  have hNine : IsDigit 16 '9' 9 := ⟨by decide, .inl rfl⟩
  have hLetter : IsEscape ['u', '\x7b', 'e', '9', '\x7d'] '\u00e9' :=
    .point (numeral_pair hFourteen hNine rfl) (by decide)
  have hChars : s.toList = ['\x00', '7', '\\', '"', '\n', '\u00e9'] := by decide
  have hQuotes : Quotes body s.toList := by
    rw [hChars]
    exact .escape hNul (.bare (by decide) (.escape hSlash (.escape .quote (.escape .feed
      (.escape hLetter .nil)))))
  exact ⟨by decide +kernel, (literal_sealed s).1, hQuotes, (literal_sealed s).2 body hQuotes⟩

end LiveMarkup.Code
