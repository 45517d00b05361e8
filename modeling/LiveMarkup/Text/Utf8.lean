/-!
# Reading UTF-8

Bytes are read one character at a time. A sequence is well formed if it is the shortest for its
code point and the code point is no surrogate and not above U+10FFFF. Reading stops at the first
ill-formed sequence, so what has been read is the longest prefix that is UTF-8.

Bytes that are no text can still be shown. Each ill-formed sequence in them is replaced by a mark; it
is as long as the bytes could have begun a well-formed one.

## Main results

* `firstChar?_length_lt` — reading a character consumes at least one byte.
-/

namespace LiveMarkup.Text

/-- Whether a byte continues a sequence. -/
def isContinuation (b : UInt8) : Bool :=
  0x80 ≤ b && b ≤ 0xbf

/-- The six bits that a continuation byte carries. -/
def continuationBits (b : UInt8) : Nat :=
  b.toNat % 0x40

/-- The well-formed sequence that `bytes` begins with, and the bytes behind it. -/
def firstChar? : List UInt8 → Option (Char × List UInt8)
  | [] => none
  | a :: rest =>
    if a < 0x80 then
      some (Char.ofNat a.toNat, rest)
    else if 0xc2 ≤ a && a ≤ 0xdf then
      match rest with
      | b :: rest =>
        if isContinuation b then
          some (Char.ofNat ((a.toNat - 0xc0) * 0x40 + continuationBits b), rest)
        else none
      | _ => none
    else if 0xe0 ≤ a && a ≤ 0xef then
      match rest with
      | b :: c :: rest =>
        if isContinuation b && isContinuation c
            && (a != 0xe0 || 0xa0 ≤ b) && (a != 0xed || b ≤ 0x9f) then
          some (Char.ofNat (((a.toNat - 0xe0) * 0x40 + continuationBits b) * 0x40
            + continuationBits c), rest)
        else none
      | _ => none
    else if 0xf0 ≤ a && a ≤ 0xf4 then
      match rest with
      | b :: c :: d :: rest =>
        if isContinuation b && isContinuation c && isContinuation d
            && (a != 0xf0 || 0x90 ≤ b) && (a != 0xf4 || b ≤ 0x8f) then
          some (Char.ofNat ((((a.toNat - 0xf0) * 0x40 + continuationBits b) * 0x40
            + continuationBits c) * 0x40 + continuationBits d), rest)
        else none
      | _ => none
    else none

/-- Reading a character consumes at least one byte. -/
theorem firstChar?_length_lt {bytes rest : List UInt8} {c : Char}
    (h : firstChar? bytes = some (c, rest)) : rest.length < bytes.length := by
  unfold firstChar? at h
  repeat' split at h
  all_goals first
    | (simp only [Option.some.injEq, Prod.mk.injEq] at h
       obtain ⟨_, rfl⟩ := h
       simp only [List.length_cons]
       omega)
    | cases h

/-- Bytes read as far as they are UTF-8: the characters, and the bytes that could not be read. -/
def decodePrefix (bytes : List UInt8) : List Char × List UInt8 :=
  match h : firstChar? bytes with
  | none => ([], bytes)
  | some (c, rest) =>
    have : rest.length < bytes.length := firstChar?_length_lt h
    let (cs, left) := decodePrefix rest
    (c :: cs, left)
termination_by bytes.length

/-- Bytes read as UTF-8. Where they are not, the characters of the longest prefix that is. -/
def decode (bytes : ByteArray) : Except (List Char) (List Char) :=
  match decodePrefix bytes.data.toList with
  | (cs, []) => .ok cs
  | (cs, _ :: _) => .error cs

/-- The bytes of a text. -/
def bytes (text : String) : List UInt8 :=
  text.toUTF8.data.toList

/-- The text that bytes are, if they are UTF-8. -/
def text? (bytes : List UInt8) : Option String :=
  match decodePrefix bytes with
  | (cs, []) => some (String.ofList cs)
  | (_, _ :: _) => none

/-! ## Showing bytes -/

/-- The mark in the place of what is ill formed. -/
def replacement : Char := '\ufffd'

/-- The length of the ill-formed sequence that bytes begin with. -/
def brokenLength : List UInt8 → Nat
  | a :: b :: rest =>
    if 0xe0 ≤ a && a ≤ 0xef then
      if isContinuation b && (a != 0xe0 || 0xa0 ≤ b) && (a != 0xed || b ≤ 0x9f) then 2 else 1
    else if 0xf0 ≤ a && a ≤ 0xf4 then
      if isContinuation b && (a != 0xf0 || 0x90 ≤ b) && (a != 0xf4 || b ≤ 0x8f) then
        if rest.head?.any isContinuation then 3 else 2
      else 1
    else 1
  | _ => 1

/-- Bytes as characters, with a mark for each ill-formed sequence. -/
def shown (bytes : List UInt8) : List Char :=
  match h : firstChar? bytes with
  | some (c, rest) =>
    have : rest.length < bytes.length := firstChar?_length_lt h
    c :: shown rest
  | none =>
    match bytes with
    | [] => []
    | a :: rest => replacement :: shown (rest.drop (brokenLength (a :: rest) - 1))
termination_by bytes.length
decreasing_by
  · exact this
  · rw [List.length_drop, List.length_cons]
    omega

end LiveMarkup.Text
