import LiveMarkup.Proofs.Code.Spelling

/-!
# Words and numbers in front of a space

How far a word or a number reaches may depend on what follows it, since both go on as long
as characters can. A space ends both. What is taken off the front of a text is taken off it
all the same where a space and any other text follow, and they are left behind it.

## Main definitions

* `before` — what is taken off the front of a text, where another text follows.

## Main results

* `isPrefixOf_space`, `takeWhile_space`, `dropWhile_space` — the parts of a text that hold
  no space are the same in front of one.
* `wordToken?_space`, `number?_space` — **words and numbers are the same in front of a
  space**, and so is their absence.
-/

namespace LiveMarkup.Code

open Text (isIdentifierStart isIdentifierContinue digitValue?)

variable {α : Type}

/-- What is taken off the front of a text, where the text `t` follows. -/
def before (t : List Char) (found : α × List Char) : α × List Char :=
  (found.1, found.2 ++ t)

/-! ## Parts of a text -/

section Space

variable (s t : List Char)

theorem isPrefixOf_space {p : List Char} (h : ' ' ∉ p) (s : List Char) :
    p.isPrefixOf (s ++ ' ' :: t) = p.isPrefixOf s := by
  induction p generalizing s with
  | nil => simp
  | cons c p ih =>
      rw [List.mem_cons, not_or] at h
      obtain ⟨hHead, hFront⟩ := h
      cases s with
      | nil => simp [List.isPrefixOf, Ne.symm hHead]
      | cons d s => simp [List.isPrefixOf, ih hFront s]

theorem isPrefixOf_eq_false {p s : List Char} (h : ∀ tail, s = p ++ tail → False) :
    p.isPrefixOf s = false := by
  rw [Bool.eq_false_iff]
  intro hFront
  obtain ⟨tail, hText⟩ := List.isPrefixOf_iff_prefix.mp hFront
  exact h tail hText.symm

theorem takeWhile_space {p : Char → Bool} (h : p ' ' = false) (s : List Char) :
    (s ++ ' ' :: t).takeWhile p = s.takeWhile p := by
  induction s with
  | nil => simp [h]
  | cons c s ih => simp [List.takeWhile_cons, ih]

theorem dropWhile_space {p : Char → Bool} (h : p ' ' = false) (s : List Char) :
    (s ++ ' ' :: t).dropWhile p = s.dropWhile p ++ ' ' :: t := by
  induction s with
  | nil => simp [h]
  | cons c s ih =>
      rw [List.cons_append, List.dropWhile_cons, List.dropWhile_cons]
      split
      · exact ih
      · rfl

theorem head?_space {c : Char} (h : c ≠ ' ') :
    (s ++ ' ' :: t).head? = some c ↔ s.head? = some c := by
  cases s with
  | nil => simp [Ne.symm h]
  | cons d s => simp

theorem any_head?_space {p : Char → Bool} (h : p ' ' = false) :
    (s ++ ' ' :: t).head?.any p = s.head?.any p := by
  cases s with
  | nil => simpa using h
  | cons d s => simp

/-! ## Words -/

theorem word?_space : word? (s ++ ' ' :: t) = (word? s).map (before (' ' :: t)) := by
  have hStart : isIdentifierStart ' ' = false := by decide
  have hContinue : isIdentifierContinue ' ' = false := by decide
  cases s with
  | nil => simp [word?, hStart]
  | cons c s =>
      rw [List.cons_append, word?, word?, takeWhile_space t hContinue,
        dropWhile_space t hContinue]
      split <;> rfl

theorem rawWord?_eq_none {s : List Char} (h : ['r', '#'].isPrefixOf s = false) :
    rawWord? s = none := by
  unfold rawWord?
  split
  · simp at h
  · rfl

theorem rawWord?_space : rawWord? (s ++ ' ' :: t) = (rawWord? s).map (before (' ' :: t)) := by
  have hMark : ' ' ∉ ['r', '#'] := by decide
  cases hPrefix : ['r', '#'].isPrefixOf s with
  | false =>
      rw [rawWord?_eq_none hPrefix, rawWord?_eq_none]
      · rfl
      · rw [isPrefixOf_space t hMark, hPrefix]
  | true =>
      obtain ⟨word, rfl⟩ := List.isPrefixOf_iff_prefix.mp hPrefix
      rw [List.append_assoc, List.cons_append, List.cons_append, List.nil_append, rawWord?,
        word?_space, Option.filter_map]
      rfl

theorem behindSuffix_space : behindSuffix (s ++ ' ' :: t) = behindSuffix s ++ ' ' :: t := by
  rw [behindSuffix, word?_space, behindSuffix]
  cases word? s <;> rfl

theorem wordToken?_space :
    wordToken? (s ++ ' ' :: t) = (wordToken? s).map (before (' ' :: t)) := by
  have hMarks : (quotedMarks.any fun mark => mark.toList.isPrefixOf (s ++ ' ' :: t)) =
      quotedMarks.any fun mark => mark.toList.isPrefixOf s := by
    have hNoSpace : ∀ mark ∈ quotedMarks, ' ' ∉ mark.toList := by decide
    rw [Bool.eq_iff_iff, List.any_eq_true, List.any_eq_true]
    exact exists_congr fun mark => and_congr_right fun hMem => by
      rw [isPrefixOf_space t (hNoSpace mark hMem)]
  rw [wordToken?, wordToken?, hMarks, isPrefixOf_space t (by decide), rawWord?_space, word?_space]
  split
  · rfl
  · split
    · rw [Option.map_map, Option.map_map]
      rfl
    · rw [Option.map_map, Option.map_map]
      rfl

theorem behindWord?_space :
    behindWord? (s ++ ' ' :: t) = (behindWord? s).map (· ++ ' ' :: t) := by
  rw [behindWord?, behindWord?, isPrefixOf_space t (by decide), rawWord?_space, word?_space]
  split
  · rw [Option.map_map, Option.map_map]
    rfl
  · rw [Option.map_map, Option.map_map]
    rfl

/-! ## Numbers -/

/-- The text behind the sign of an exponent. -/
def behindSign : List Char → List Char
  | '+' :: rest => rest
  | '-' :: rest => rest
  | rest => rest

theorem behindSign_space : behindSign (s ++ ' ' :: t) = behindSign s ++ ' ' :: t := by
  cases s with
  | nil => rfl
  | cons c s =>
      unfold behindSign
      split <;> simp_all

theorem behindExponent_eq : behindExponent s =
    match (behindSign (s.dropWhile (· == '_'))).dropWhile (· == '_') with
    | c :: rest => if c.isDigit then some (rest.dropWhile isDecimalPlace) else none
    | [] => none :=
  rfl

theorem behindExponent_space :
    behindExponent (s ++ ' ' :: t) = (behindExponent s).map (· ++ ' ' :: t) := by
  have hPlace : isDecimalPlace ' ' = false := by decide
  rw [behindExponent_eq, behindExponent_eq, dropWhile_space t (p := (· == '_')) rfl,
    behindSign_space, dropWhile_space t (p := (· == '_')) rfl]
  generalize List.dropWhile _ (behindSign _) = digits
  cases digits with
  | nil => rfl
  | cons c digits =>
      simp only [List.cons_append, dropWhile_space t hPlace]
      split <;> rfl

/-- The text behind the exponent that may follow the digits of a fraction. -/
def behindPower : List Char → List Char
  | 'e' :: power => (behindExponent power).getD ('e' :: power)
  | 'E' :: power => (behindExponent power).getD ('E' :: power)
  | fraction => fraction

theorem behindPower_space : behindPower (s ++ ' ' :: t) = behindPower s ++ ' ' :: t := by
  have hLetter : ∀ c, ((behindExponent (s.tail ++ ' ' :: t)).getD (c :: (s.tail ++ ' ' :: t))) =
      (behindExponent s.tail).getD (c :: s.tail) ++ ' ' :: t := by
    intro c
    rw [behindExponent_space]
    cases behindExponent s.tail <;> rfl
  cases s with
  | nil => rfl
  | cons c s =>
      rw [List.cons_append]
      unfold behindPower
      split
      · rename_i hText
        cases hText
        exact hLetter 'e'
      · rename_i hText
        cases hText
        exact hLetter 'E'
      · split <;> simp_all

/-- The text behind a point or an exponent. -/
def behindPoint : List Char → Option (List Char)
  | '.' :: rest =>
    if rest.head?.any fun c => c == '.' || isIdentifierStart c then none
    else some (behindPower (rest.dropWhile isDecimalPlace))
  | 'e' :: power => behindExponent power
  | 'E' :: power => behindExponent power
  | _ => none

theorem behindPoint_space :
    behindPoint (s ++ ' ' :: t) = (behindPoint s).map (· ++ ' ' :: t) := by
  have hPlace : isDecimalPlace ' ' = false := by decide
  have hStop : (' ' == '.' || isIdentifierStart ' ') = false := by decide
  cases s with
  | nil => rfl
  | cons c s =>
      rw [List.cons_append]
      unfold behindPoint
      split
      · rename_i hText
        cases hText
        rw [any_head?_space (p := fun c => c == '.' || isIdentifierStart c) _ _ hStop,
          dropWhile_space t hPlace, behindPower_space]
        split <;> simp_all
      · rename_i hText
        cases hText
        exact behindExponent_space s t
      · rename_i hText
        cases hText
        exact behindExponent_space s t
      · split <;> simp_all

theorem behindFractionDigits_eq :
    behindFractionDigits s = behindPoint (s.dropWhile isDecimalPlace) := by
  unfold behindFractionDigits
  generalize s.dropWhile isDecimalPlace = rest
  split
  · rename_i rest
    dsimp only [behindPoint]
    refine ite_congr rfl (fun _ => rfl) fun _ => ?_
    unfold behindPower
    split <;> simp_all
  · rfl
  · rfl
  · unfold behindPoint
    split <;> simp_all

theorem behindFractionDigits_space :
    behindFractionDigits (s ++ ' ' :: t) = (behindFractionDigits s).map (· ++ ' ' :: t) := by
  rw [behindFractionDigits_eq, behindFractionDigits_eq, dropWhile_space t (by decide),
    behindPoint_space]

theorem radixOf_space : radixOf (s ++ ' ' :: t) = before (' ' :: t) (radixOf s) := by
  match s with
  | [] => rfl
  | [c] =>
      unfold radixOf
      split <;> simp_all [before]
  | c :: d :: s =>
      unfold radixOf
      split <;> simp_all [before]

theorem digitValue?_space (radix : Nat) : digitValue? radix ' ' = none := by
  have hNone : digitValue? 0 ' ' = none := by decide
  exact hNone

theorem behindWholeDigits_space :
    behindWholeDigits (s ++ ' ' :: t) = (behindWholeDigits s).map (· ++ ' ' :: t) := by
  simp only [behindWholeDigits, radixOf_space, before]
  rw [takeWhile_space t (by simp [digitValue?_space])]
  split
  · rw [List.drop_append_of_le_length (List.takeWhile_sublist _).length_le]
    rfl
  · rfl

theorem behindNumber_space :
    behindNumber (s ++ ' ' :: t) = (behindNumber s).map (· ++ ' ' :: t) := by
  have hContinue : isIdentifierContinue ' ' = false := by decide
  rw [behindNumber, behindNumber, behindSuffix_space]
  simp only [any_head?_space _ t hContinue]
  split <;> rfl

/-- What was taken off the front of a text is the same part of a longer one. -/
theorem take_append (behind : List Char) :
    (s ++ t).take ((s ++ t).length - (behind ++ t).length) = s.take (s.length - behind.length) := by
  rw [List.length_append, List.length_append, Nat.add_sub_add_right,
    List.take_append_of_le_length (Nat.sub_le _ _)]

theorem number?_space : number? (s ++ ' ' :: t) = (number? s).map (before (' ' :: t)) := by
  have hDigit : Char.isDigit ' ' = false := by decide
  have hBind : ∀ digits : Option (List Char),
      (digits.map (· ++ ' ' :: t)).bind behindNumber =
        (digits.bind behindNumber).map (· ++ ' ' :: t) := by
    intro digits
    cases digits with
    | none => rfl
    | some behind => exact behindNumber_space behind t
  simp only [number?, any_head?_space _ t hDigit, behindFractionDigits_space,
    behindWholeDigits_space, hBind]
  split
  · cases (behindFractionDigits s).bind behindNumber with
    | some behind => simp only [Option.map_some, take_append, before]
    | none =>
        cases (behindWholeDigits s).bind behindNumber with
        | some behind => simp only [Option.map_some, Option.map_none, take_append, before]
        | none => rfl
  · rfl

end Space

end LiveMarkup.Code
