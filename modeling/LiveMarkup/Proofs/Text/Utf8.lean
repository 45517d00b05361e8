import LiveMarkup.Text.Utf8
import Mathlib.Logic.Basic

/-!
# UTF-8

The bytes of a character follow from the character, and no two characters have the same.
So bytes that are UTF-8 are so in one way, and all bytes have a longest prefix that is.
Reading them gives the characters of this prefix.

The well-formed sequences of bytes are written down once more here, as a relation, with
one case for each length. The reader of bytes and the encoding of characters are both
compared with the relation, and then need not be compared with each other.

## Main definitions

* `Sequence` — the well-formed sequences, with their code points.
* `LongestText` — the text of the longest prefix that is UTF-8.

## Main results

* `sequence_iff` — the well-formed sequences are the encodings of characters.
* `firstChar?_eq_some_iff` — a character is read exactly if its encoding is in front.
* `decode_eq_ok_iff`, `decode_eq_error_iff` — **bytes are read if they are UTF-8, and
  otherwise the text of their longest prefix that is UTF-8 is told**.
* `text?_eq_some_iff`, `shown_bytes` — bytes are a text exactly if they are those of the
  text, and are shown as the text then.
* `lineFeed_mem_shown_iff` — whatever is no text is shown without new line feeds.
-/

namespace LiveMarkup.Text

/-! ## Well-formed sequences -/

/-- A byte that is not the first one of a sequence. -/
def Continues (b : UInt8) : Prop :=
  0x80 ≤ b.toNat ∧ b.toNat ≤ 0xbf

/-- The well-formed sequences of bytes, with the code points that they stand for. What is
asked of the second byte keeps out code points that have a shorter sequence, surrogates
and those above the last one. -/
inductive Sequence : List UInt8 → Nat → Prop where
  | one {a : UInt8} {n : Nat} (hLead : a.toNat ≤ 0x7f) (hCode : n = a.toNat) : Sequence [a] n
  | two {a b : UInt8} {n : Nat} (hLead : 0xc2 ≤ a.toNat ∧ a.toNat ≤ 0xdf) (hSecond : Continues b)
      (hCode : n = (a.toNat - 0xc0) * 0x40 + b.toNat % 0x40) : Sequence [a, b] n
  | three {a b c : UInt8} {n : Nat} (hLead : 0xe0 ≤ a.toNat ∧ a.toNat ≤ 0xef)
      (hSecond : Continues b) (hThird : Continues c) (hLow : a.toNat = 0xe0 → 0xa0 ≤ b.toNat)
      (hHigh : a.toNat = 0xed → b.toNat ≤ 0x9f)
      (hCode : n = ((a.toNat - 0xe0) * 0x40 + b.toNat % 0x40) * 0x40 + c.toNat % 0x40) :
      Sequence [a, b, c] n
  | four {a b c d : UInt8} {n : Nat} (hLead : 0xf0 ≤ a.toNat ∧ a.toNat ≤ 0xf4)
      (hSecond : Continues b) (hThird : Continues c) (hFourth : Continues d)
      (hLow : a.toNat = 0xf0 → 0x90 ≤ b.toNat) (hHigh : a.toNat = 0xf4 → b.toNat ≤ 0x8f)
      (hCode : n = (((a.toNat - 0xf0) * 0x40 + b.toNat % 0x40) * 0x40 + c.toNat % 0x40) * 0x40
        + d.toNat % 0x40) : Sequence [a, b, c, d] n

/-- Sequences stand for characters. -/
theorem Sequence.isValidChar {bytes : List UInt8} {n : Nat} (h : Sequence bytes n) :
    n.isValidChar := by
  show n < 0xd800 ∨ 0xdfff < n ∧ n < 0x110000
  cases h with
  | one hLead hCode => omega
  | two hLead hSecond hCode => omega
  | @three a b c n hLead hSecond hThird hLow hHigh hCode =>
      unfold Continues at hSecond hThird
      by_cases hSurrogate : a.toNat = 0xed
      · have hBelow := hHigh hSurrogate
        omega
      · omega
  | @four a b c d n hLead hSecond hThird hFourth hLow hHigh hCode =>
      unfold Continues at hSecond hThird
      by_cases hFirst : a.toNat = 0xf0
      · have hAbove := hLow hFirst
        omega
      · by_cases hLast : a.toNat = 0xf4
        · have hBelow := hHigh hLast
          omega
        · omega

theorem toNat_ofNat {n : Nat} (h : n.isValidChar) : (Char.ofNat n).toNat = n := by
  rw [Char.ofNat, dif_pos h]
  rfl

theorem toNat_ofNat_byte {n : Nat} (h : n < 256) : (UInt8.ofNat n).toNat = n :=
  UInt8.toNat_ofNat_of_lt' h

/-- What a character is encoded by is the sequence for its code point. -/
theorem Sequence.encode {bytes : List UInt8} {c : Char} (h : Sequence bytes c.toNat) :
    String.utf8EncodeChar c = bytes := by
  have hCode : c.val.toNat = c.toNat := rfl
  rw [String.utf8EncodeChar, hCode]
  generalize c.toNat = n at h
  cases h with
  | one hLead hCode => rw [if_pos (by omega), hCode, UInt8.ofNat_toNat]
  | @two a b n hLead hSecond hCode =>
      unfold Continues at hSecond
      have hA : n / 64 % 32 + 192 = a.toNat := by omega
      have hB : n % 64 + 128 = b.toNat := by omega
      rw [if_neg (by omega), if_pos (by omega), hA, hB, UInt8.ofNat_toNat, UInt8.ofNat_toNat]
  | @three a b c n hLead hSecond hThird hLow hHigh hCode =>
      unfold Continues at hSecond hThird
      have hA : n / 4096 % 16 + 224 = a.toNat := by omega
      have hB : n / 64 % 64 + 128 = b.toNat := by omega
      have hC : n % 64 + 128 = c.toNat := by omega
      rw [if_neg (by omega), if_neg (by omega), if_pos (by omega), hA, hB, hC,
        UInt8.ofNat_toNat, UInt8.ofNat_toNat, UInt8.ofNat_toNat]
  | @four a b c d n hLead hSecond hThird hFourth hLow hHigh hCode =>
      unfold Continues at hSecond hThird hFourth
      have hA : n / 262144 % 8 + 240 = a.toNat := by omega
      have hB : n / 4096 % 64 + 128 = b.toNat := by omega
      have hC : n / 64 % 64 + 128 = c.toNat := by omega
      have hD : n % 64 + 128 = d.toNat := by omega
      rw [if_neg (by omega), if_neg (by omega), if_neg (by omega), hA, hB, hC, hD,
        UInt8.ofNat_toNat, UInt8.ofNat_toNat, UInt8.ofNat_toNat, UInt8.ofNat_toNat]

/-- There is a sequence for every character. -/
theorem sequence_encode (c : Char) : Sequence (String.utf8EncodeChar c) c.toNat := by
  have hCode : c.val.toNat = c.toNat := rfl
  have hValid : c.toNat < 0xd800 ∨ 0xdfff < c.toNat ∧ c.toNat < 0x110000 := c.valid
  rw [String.utf8EncodeChar, hCode]
  generalize c.toNat = n at hValid
  split
  · have hA : (UInt8.ofNat n).toNat = n := toNat_ofNat_byte (by omega)
    exact .one (by omega) hA.symm
  split
  · have hA : (UInt8.ofNat (n / 64 % 32 + 192)).toNat = n / 64 % 32 + 192 :=
      toNat_ofNat_byte (by omega)
    have hB : (UInt8.ofNat (n % 64 + 128)).toNat = n % 64 + 128 := toNat_ofNat_byte (by omega)
    refine .two ?_ ?_ ?_
    all_goals (simp only [Continues, hA, hB]; omega)
  split
  · have hA : (UInt8.ofNat (n / 4096 % 16 + 224)).toNat = n / 4096 % 16 + 224 :=
      toNat_ofNat_byte (by omega)
    have hB : (UInt8.ofNat (n / 64 % 64 + 128)).toNat = n / 64 % 64 + 128 :=
      toNat_ofNat_byte (by omega)
    have hC : (UInt8.ofNat (n % 64 + 128)).toNat = n % 64 + 128 := toNat_ofNat_byte (by omega)
    refine .three ?_ ?_ ?_ ?_ ?_ ?_
    all_goals (simp only [Continues, hA, hB, hC]; omega)
  · have hA : (UInt8.ofNat (n / 262144 % 8 + 240)).toNat = n / 262144 % 8 + 240 :=
      toNat_ofNat_byte (by omega)
    have hB : (UInt8.ofNat (n / 4096 % 64 + 128)).toNat = n / 4096 % 64 + 128 :=
      toNat_ofNat_byte (by omega)
    have hC : (UInt8.ofNat (n / 64 % 64 + 128)).toNat = n / 64 % 64 + 128 :=
      toNat_ofNat_byte (by omega)
    have hD : (UInt8.ofNat (n % 64 + 128)).toNat = n % 64 + 128 := toNat_ofNat_byte (by omega)
    refine .four ?_ ?_ ?_ ?_ ?_ ?_ ?_
    all_goals (simp only [Continues, hA, hB, hC, hD]; omega)

/-- **The well-formed sequences are the encodings of characters.** -/
theorem sequence_iff {bytes : List UInt8} {n : Nat} :
    Sequence bytes n ↔ ∃ c : Char, bytes = String.utf8EncodeChar c ∧ n = c.toNat := by
  constructor
  · intro h
    have hCode := toNat_ofNat h.isValidChar
    rw [← hCode] at h
    exact ⟨Char.ofNat n, h.encode.symm, hCode.symm⟩
  · rintro ⟨c, rfl, rfl⟩
    exact sequence_encode c

/-! ## The first character -/

theorem between_iff {low high b : UInt8} :
    (decide (low ≤ b) && decide (b ≤ high)) = true ↔
      low.toNat ≤ b.toNat ∧ b.toNat ≤ high.toNat := by
  rw [Bool.and_eq_true, decide_eq_true_iff, decide_eq_true_iff, UInt8.le_iff_toNat_le,
    UInt8.le_iff_toNat_le]

theorem isContinuation_iff {b : UInt8} : isContinuation b = true ↔ Continues b :=
  between_iff

/-- A condition on the second byte that only one first byte asks for. -/
theorem bne_or_iff {a lead : UInt8} {asked : Prop} [Decidable asked] :
    (a != lead || decide asked) = true ↔ (a.toNat = lead.toNat → asked) := by
  rw [Bool.or_eq_true, bne_iff_ne, decide_eq_true_iff, UInt8.toNat_inj, imp_iff_not_or]

/-- What is read is a well-formed sequence. -/
theorem exists_sequence_of_firstChar? {bytes rest : List UInt8} {c : Char}
    (h : firstChar? bytes = some (c, rest)) :
    ∃ front n, Sequence front n ∧ bytes = front ++ rest ∧ c = Char.ofNat n := by
  unfold firstChar? at h
  split at h
  · cases h
  split at h
  · rename_i hLead
    cases h
    exact ⟨_, _, .one (Nat.le_of_lt_succ (UInt8.lt_iff_toNat_lt.mp hLead)) rfl, rfl, rfl⟩
  split at h
  · rename_i hLead
    split at h
    · split at h
      · rename_i hSecond
        cases h
        exact ⟨_, _, .two (between_iff.mp hLead) (isContinuation_iff.mp hSecond) rfl, rfl, rfl⟩
      · cases h
    · cases h
  split at h
  · rename_i hLead
    split at h
    · split at h
      · rename_i hTail
        cases h
        simp only [Bool.and_eq_true, isContinuation_iff, bne_or_iff] at hTail
        obtain ⟨⟨⟨hSecond, hThird⟩, hLow⟩, hHigh⟩ := hTail
        exact ⟨_, _, .three (between_iff.mp hLead) hSecond hThird hLow hHigh rfl, rfl, rfl⟩
      · cases h
    · cases h
  split at h
  · rename_i hLead
    split at h
    · split at h
      · rename_i hTail
        cases h
        simp only [Bool.and_eq_true, isContinuation_iff, bne_or_iff] at hTail
        obtain ⟨⟨⟨⟨hSecond, hThird⟩, hFourth⟩, hLow⟩, hHigh⟩ := hTail
        exact ⟨_, _, .four (between_iff.mp hLead) hSecond hThird hFourth hLow hHigh rfl, rfl, rfl⟩
      · cases h
    · cases h
  · cases h

theorem not_lt_of_le {a bound : UInt8} (h : bound.toNat ≤ a.toNat) : ¬ a < bound :=
  UInt8.not_lt.mpr (UInt8.le_iff_toNat_le.mpr h)

theorem not_between {low high b : UInt8} (h : high.toNat < b.toNat) :
    ¬ (decide (low ≤ b) && decide (b ≤ high)) = true :=
  fun hBetween => Nat.not_le_of_lt h (between_iff.mp hBetween).2

/-- Well-formed sequences are read. -/
theorem Sequence.firstChar? {front : List UInt8} {n : Nat} (h : Sequence front n)
    (rest : List UInt8) : firstChar? (front ++ rest) = some (Char.ofNat n, rest) := by
  cases h with
  | @one a n hLead hCode =>
      show Text.firstChar? (a :: rest) = _
      unfold Text.firstChar?
      dsimp only
      rw [if_pos (UInt8.lt_iff_toNat_lt.mpr (Nat.lt_succ_of_le hLead)), hCode]
  | @two a b n hLead hSecond hCode =>
      have hBetween : (decide (0xc2 ≤ a) && decide (a ≤ 0xdf)) = true := between_iff.mpr hLead
      show Text.firstChar? (a :: b :: rest) = _
      unfold Text.firstChar?
      dsimp only
      rw [if_neg (not_lt_of_le (Nat.le_trans (by decide) hLead.1)), if_pos hBetween,
        hCode]
      exact if_pos (isContinuation_iff.mpr hSecond)
  | @three a b c n hLead hSecond hThird hLow hHigh hCode =>
      have hBetween : (decide (0xe0 ≤ a) && decide (a ≤ 0xef)) = true := between_iff.mpr hLead
      show Text.firstChar? (a :: b :: c :: rest) = _
      unfold Text.firstChar?
      dsimp only
      rw [if_neg (not_lt_of_le (Nat.le_trans (by decide) hLead.1)),
        if_neg (not_between (Nat.lt_of_lt_of_le (by decide) hLead.1)),
        if_pos hBetween, hCode]
      refine if_pos ?_
      simp only [Bool.and_eq_true, isContinuation_iff, bne_or_iff]
      exact ⟨⟨⟨hSecond, hThird⟩, hLow⟩, hHigh⟩
  | @four a b c d n hLead hSecond hThird hFourth hLow hHigh hCode =>
      have hBetween : (decide (0xf0 ≤ a) && decide (a ≤ 0xf4)) = true := between_iff.mpr hLead
      show Text.firstChar? (a :: b :: c :: d :: rest) = _
      unfold Text.firstChar?
      dsimp only
      rw [if_neg (not_lt_of_le (Nat.le_trans (by decide) hLead.1)),
        if_neg (not_between (Nat.lt_of_lt_of_le (by decide) hLead.1)),
        if_neg (not_between (Nat.lt_of_lt_of_le (by decide) hLead.1)),
        if_pos hBetween, hCode]
      refine if_pos ?_
      simp only [Bool.and_eq_true, isContinuation_iff, bne_or_iff]
      exact ⟨⟨⟨⟨hSecond, hThird⟩, hFourth⟩, hLow⟩, hHigh⟩

/-- **A character is read exactly if its encoding is in front.** -/
theorem firstChar?_eq_some_iff {bytes rest : List UInt8} {c : Char} :
    firstChar? bytes = some (c, rest) ↔ bytes = String.utf8EncodeChar c ++ rest := by
  constructor
  · intro h
    obtain ⟨front, n, hFront, rfl, rfl⟩ := exists_sequence_of_firstChar? h
    rw [← toNat_ofNat hFront.isValidChar] at hFront
    rw [hFront.encode]
  · rintro rfl
    have hRead := (sequence_encode c).firstChar? rest
    rwa [Char.ofNat_toNat] at hRead

/-! ## The longest text -/

/-- The bytes of a text. -/
def encoded (text : List Char) : List UInt8 :=
  text.flatMap String.utf8EncodeChar

theorem encoded_cons (c : Char) (text : List Char) :
    encoded (c :: text) = String.utf8EncodeChar c ++ encoded text :=
  List.flatMap_cons

/-- The text of the longest prefix of bytes that is UTF-8. -/
structure LongestText (bytes : List UInt8) (text : List Char) : Prop where
  isPrefix : encoded text <+: bytes
  longest : ∀ other, encoded other <+: bytes → other <+: text

theorem LongestText.unique {bytes : List UInt8} {text other : List Char}
    (h : LongestText bytes text) (h' : LongestText bytes other) : text = other :=
  (h'.longest text h.isPrefix).eq_of_length_le (h.longest other h'.isPrefix).length_le

theorem longestText_nil {bytes : List UInt8} (h : firstChar? bytes = none) :
    LongestText bytes [] := by
  refine ⟨List.nil_prefix, fun other hOther => ?_⟩
  cases other with
  | nil => exact List.nil_prefix
  | cons c other =>
      obtain ⟨rest, rfl⟩ := hOther
      rw [encoded_cons, List.append_assoc, firstChar?_eq_some_iff.mpr rfl] at h
      cases h

theorem LongestText.cons {bytes : List UInt8} {text : List Char} (h : LongestText bytes text)
    (c : Char) : LongestText (String.utf8EncodeChar c ++ bytes) (c :: text) := by
  constructor
  · rw [encoded_cons]
    exact (List.prefix_append_right_inj _).mpr h.isPrefix
  · intro other hOther
    cases other with
    | nil => exact List.nil_prefix
    | cons d other =>
        obtain ⟨rest, hBytes⟩ := hOther
        rw [encoded_cons, List.append_assoc] at hBytes
        -- both begin with the character that is read
        have hBoth := (firstChar?_eq_some_iff.mpr hBytes.symm).symm.trans
          (firstChar?_eq_some_iff.mpr rfl)
        obtain ⟨rfl, hRest⟩ := Prod.mk.inj (Option.some.inj hBoth)
        exact List.cons_prefix_cons.mpr ⟨rfl, h.longest other ⟨rest, hRest⟩⟩

/-! ## Reading -/

theorem decodePrefix_of_none {bytes : List UInt8} (h : firstChar? bytes = none) :
    decodePrefix bytes = ([], bytes) := by
  rw [decodePrefix]
  split
  · rfl
  · rename_i hSome
    cases h.symm.trans hSome

theorem decodePrefix_encode (c : Char) (bytes : List UInt8) :
    decodePrefix (String.utf8EncodeChar c ++ bytes) =
      (c :: (decodePrefix bytes).1, (decodePrefix bytes).2) := by
  have hFirst : firstChar? (String.utf8EncodeChar c ++ bytes) = some (c, bytes) :=
    firstChar?_eq_some_iff.mpr rfl
  rw [decodePrefix]
  split
  · rename_i hNone
    cases hNone.symm.trans hFirst
  · rename_i hSome
    obtain ⟨rfl, rfl⟩ := Prod.mk.inj (Option.some.inj (hSome.symm.trans hFirst))
    rfl

/-- **Reading goes as far as bytes are UTF-8**, and leaves the others. -/
theorem decodePrefix_spec (bytes : List UInt8) :
    LongestText bytes (decodePrefix bytes).1 ∧
      bytes = encoded (decodePrefix bytes).1 ++ (decodePrefix bytes).2 := by
  induction bytes using decodePrefix.induct with
  | case1 bytes hNone =>
      rw [decodePrefix_of_none hNone]
      exact ⟨longestText_nil hNone, rfl⟩
  | case2 bytes c rest hSome _ _ _ _ ih =>
      obtain rfl := firstChar?_eq_some_iff.mp hSome
      rw [decodePrefix_encode]
      refine ⟨ih.1.cons c, ?_⟩
      rw [encoded_cons, List.append_assoc, ← ih.2]

theorem decodePrefix_encoded (text : List Char) : decodePrefix (encoded text) = (text, []) := by
  induction text with
  | nil => exact decodePrefix_of_none rfl
  | cons c text ih => rw [encoded_cons, decodePrefix_encode, ih]

theorem toList_utf8Encode (text : List Char) : text.utf8Encode.data.toList = encoded text := by
  rw [List.utf8Encode, List.data_toByteArray]
  rfl

/-- **Bytes are read exactly if they are UTF-8.** -/
theorem decode_eq_ok_iff {bytes : ByteArray} {text : List Char} :
    decode bytes = .ok text ↔ bytes = text.utf8Encode := by
  obtain ⟨hLongest, hBytes⟩ := decodePrefix_spec bytes.data.toList
  constructor
  · intro h
    rw [decode] at h
    split at h
    · rename_i read hRead
      cases h
      rw [hRead, List.append_nil, ← toList_utf8Encode] at hBytes
      exact ByteArray.ext (Array.toList_inj.mp hBytes)
    · cases h
  · rintro rfl
    rw [decode, toList_utf8Encode, decodePrefix_encoded]

theorem bytes_eq_encoded (text : String) : bytes text = encoded text.toList := by
  have hBytes : text.toUTF8 = text.toList.utf8Encode := String.utf8Encode_toList.symm
  rw [bytes, hBytes, toList_utf8Encode]

/-- **Bytes are a text exactly if they are those of the text.** -/
theorem text?_eq_some_iff {name : List UInt8} {text : String} :
    text? name = some text ↔ name = bytes text := by
  obtain ⟨-, hBytes⟩ := decodePrefix_spec name
  constructor
  · intro h
    rw [text?] at h
    split at h
    · rename_i read hRead
      cases h
      rw [hRead, List.append_nil] at hBytes
      rw [bytes_eq_encoded, String.toList_ofList, hBytes]
    · cases h
  · rintro rfl
    rw [text?, bytes_eq_encoded, decodePrefix_encoded]
    simp only [String.ofList_toList]

/-- **Of bytes that are not UTF-8 the text of the longest prefix is told that is.** -/
theorem decode_eq_error_iff {bytes : ByteArray} {text : List Char} :
    decode bytes = .error text ↔
      ¬ bytes.IsValidUTF8 ∧ LongestText bytes.data.toList text := by
  obtain ⟨hLongest, -⟩ := decodePrefix_spec bytes.data.toList
  cases hDecode : decode bytes with
  | ok read =>
      have hBytes := decode_eq_ok_iff.mp hDecode
      exact ⟨nofun, fun h => absurd ⟨read, hBytes⟩ h.1⟩
  | error read =>
      have hRead : read = (decodePrefix bytes.data.toList).1 := by
        rw [decode] at hDecode
        split at hDecode
        · cases hDecode
        · rename_i hPrefix
          cases hDecode
          rw [hPrefix]
      rw [← hRead] at hLongest
      rw [Except.error.injEq]
      constructor
      · rintro rfl
        refine ⟨fun hValid => ?_, hLongest⟩
        cases hValid with
        | intro text hBytes => exact nomatch (decode_eq_ok_iff.mpr hBytes).symm.trans hDecode
      · exact fun h => hLongest.unique h.2

/-! ## Showing bytes -/

theorem shown_encode (c : Char) (bytes : List UInt8) :
    shown (String.utf8EncodeChar c ++ bytes) = c :: shown bytes := by
  have hFirst : firstChar? (String.utf8EncodeChar c ++ bytes) = some (c, bytes) :=
    firstChar?_eq_some_iff.mpr rfl
  rw [shown]
  split
  · rename_i hSome
    obtain ⟨rfl, rfl⟩ := Prod.mk.inj (Option.some.inj (hSome.symm.trans hFirst))
    rfl
  · rename_i hNone
    cases hNone.symm.trans hFirst

/-- **A text is shown as it is.** -/
theorem shown_bytes (text : String) : shown (bytes text) = text.toList := by
  rw [bytes_eq_encoded]
  induction text.toList with
  | nil => rw [encoded, List.flatMap_nil, shown]; rfl
  | cons c rest ih => rw [encoded_cons, shown_encode, ih]

theorem ne_lineFeed_of_continues {b : UInt8} (h : Continues b) : 0x0a ≠ b := by
  rintro rfl
  exact absurd h.1 (by decide)

/-- No sequence holds the byte of a line feed but that of the line feed. -/
theorem Sequence.lineFeed_mem_iff {bytes : List UInt8} {n : Nat} (h : Sequence bytes n) :
    0x0a ∈ bytes ↔ n = 0x0a := by
  have hByte : ∀ b : UInt8, 0x0a = b ↔ b.toNat = 0x0a := by
    intro b
    rw [eq_comm, ← UInt8.toNat_inj]
    rfl
  cases h with
  | one hLead hCode => rw [List.mem_singleton, hByte, hCode]
  | two hLead hSecond hCode =>
      unfold Continues at hSecond
      simp only [List.mem_cons, List.not_mem_nil, or_false, hByte]
      omega
  | three hLead hSecond hThird hLow hHigh hCode =>
      unfold Continues at hSecond hThird
      simp only [List.mem_cons, List.not_mem_nil, or_false, hByte]
      omega
  | four hLead hSecond hThird hFourth hLow hHigh hCode =>
      unfold Continues at hSecond hThird hFourth
      simp only [List.mem_cons, List.not_mem_nil, or_false, hByte]
      omega

theorem lineFeed_mem_encode_iff (c : Char) :
    0x0a ∈ String.utf8EncodeChar c ↔ '\n' = c := by
  rw [(sequence_encode c).lineFeed_mem_iff, eq_comm, ← Char.toNat_inj]
  rfl

/-- What is passed over of an ill-formed sequence is no line feed. -/
theorem lineFeed_not_mem_broken (a : UInt8) (rest : List UInt8) :
    0x0a ∉ rest.take (brokenLength (a :: rest) - 1) := by
  have hContinuation : ∀ {b : UInt8}, isContinuation b = true → 0x0a ≠ b :=
    fun h => ne_lineFeed_of_continues (isContinuation_iff.mp h)
  cases rest with
  | nil => simp
  | cons b more =>
      rw [brokenLength]
      split
      · split
        · rename_i hSecond
          simp only [Bool.and_eq_true] at hSecond
          simpa using hContinuation hSecond.1.1
        · simp
      split
      · split
        · rename_i hSecond
          simp only [Bool.and_eq_true] at hSecond
          split
          · rename_i hThird
            cases more with
            | nil => cases hThird
            | cons c others =>
              simpa using ⟨hContinuation hSecond.1.1, hContinuation hThird⟩
          · simpa using hContinuation hSecond.1.1
        · simp
      · simp

theorem shown_of_none {a : UInt8} {rest : List UInt8} (h : firstChar? (a :: rest) = none) :
    shown (a :: rest) = replacement :: shown (rest.drop (brokenLength (a :: rest) - 1)) := by
  rw [shown]
  split
  · rename_i hSome
    cases h.symm.trans hSome
  · rfl

/-- **Bytes are shown with the line feeds that are in them**, and with no others. -/
theorem lineFeed_mem_shown_iff (bytes : List UInt8) : '\n' ∈ shown bytes ↔ 0x0a ∈ bytes := by
  induction bytes using shown.induct with
  | case1 bytes c rest hFirst hLt ih =>
      obtain rfl := firstChar?_eq_some_iff.mp hFirst
      rw [shown_encode, List.mem_cons, List.mem_append, lineFeed_mem_encode_iff, ih]
  | case2 =>
      rw [shown]
      exact iff_of_false List.not_mem_nil List.not_mem_nil
  | case3 a rest hNone ih =>
      have hLead : (0x0a : UInt8) ≠ a := by
        rintro rfl
        have hFeed : firstChar? (0x0a :: rest) = some ('\n', rest) :=
          (Sequence.one (by decide) rfl).firstChar? rest
        cases hNone.symm.trans hFeed
      have hParts : 0x0a ∈ rest.take (brokenLength (a :: rest) - 1) ∨
          0x0a ∈ rest.drop (brokenLength (a :: rest) - 1) ↔ 0x0a ∈ rest := by
        rw [← List.mem_append, List.take_append_drop]
      rw [or_iff_right (lineFeed_not_mem_broken a rest)] at hParts
      rw [shown_of_none hNone, List.mem_cons, List.mem_cons, or_iff_right (by decide), ih, hParts,
        or_iff_right hLead]

end LiveMarkup.Text
