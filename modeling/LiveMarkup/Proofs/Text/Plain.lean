import LiveMarkup.Text.Escaped

/-!
# Texts that need no escapes

Most texts are quoted as they are. Among them are the digits of numbers.

## Main results

* `debug_plain` — a text without anything to escape stands between its quotes.
* `isPlain_of_common` — nearly all printable characters of ASCII need no escapes.
* `isPlain_toString` — the digits of a number need none.
-/

namespace LiveMarkup.Text

/-- All characters of a text stand for themselves between quotes. -/
def IsPlain (s : String) : Prop :=
  ∀ c ∈ s.toList, escapeDebug [c] = [c]

theorem IsPlain.append {s t : String} (hFront : IsPlain s) (hBack : IsPlain t) :
    IsPlain (s ++ t) := by
  intro c hMem
  rw [String.toList_append, List.mem_append] at hMem
  rcases hMem with hMem | hMem
  · exact hFront c hMem
  · exact hBack c hMem

theorem escapeDebug_cons (c : Char) (rest : List Char) :
    escapeDebug (c :: rest) = escapeDebug [c] ++ escapeDebug rest := by
  rw [escapeDebug, escapeDebug, escapeDebug, List.append_nil]

/-- **A text without anything to escape stands between its quotes.** -/
theorem debug_plain {s : String} (h : IsPlain s) : debug s = "\"" ++ s ++ "\"" := by
  have hChars : ∀ chars : List Char, (∀ c ∈ chars, escapeDebug [c] = [c]) →
      escapeDebug chars = chars := by
    intro chars hPlain
    induction chars with
    | nil => rfl
    | cons c rest ih =>
        rw [escapeDebug_cons, hPlain c List.mem_cons_self,
          ih fun other hMem => hPlain other (List.mem_cons_of_mem c hMem), List.singleton_append]
  rw [debug, hChars s.toList h]
  apply String.toList_injective
  simp

/-- What holds for the code points up to a bound holds for their characters. -/
theorem of_toNat_le {P : Char → Prop} {bound : Nat} (h : ∀ code ≤ bound, P (Char.ofNat code))
    {c : Char} (hLe : c.toNat ≤ bound) : P c := by
  have hChar := h c.toNat hLe
  rwa [Char.ofNat_toNat] at hChar

/-- The printable characters of ASCII, without the quote and the backslash. -/
def isCommon (c : Char) : Bool :=
  ' '.toNat ≤ c.toNat && c.toNat ≤ '~'.toNat && c != '"' && c != '\\'

theorem toNat_le_of_isCommon {c : Char} (h : isCommon c = true) : c.toNat ≤ '~'.toNat := by
  simp only [isCommon, Bool.and_eq_true, decide_eq_true_eq] at h
  exact h.1.1.2

/-- **A text of printable characters of ASCII needs no escapes**, quotes and backslashes
aside. -/
theorem isPlain_of_common {s : String} (h : s.toList.all isCommon = true) : IsPlain s := by
  have hEscaped : ∀ code ≤ '~'.toNat, isCommon (Char.ofNat code) = true →
      escapeDebug [Char.ofNat code] = [Char.ofNat code] := by decide +kernel
  intro c hMem
  have hCommon := List.all_eq_true.mp h c hMem
  exact of_toNat_le (P := fun c => isCommon c = true → escapeDebug [c] = [c]) hEscaped
    (toNat_le_of_isCommon hCommon) hCommon

/-! ## Numbers -/

theorem isDigit_of_mem_toString {n : Nat} {c : Char} (h : c ∈ (toString n).toList) :
    c.isDigit = true := by
  have hDigits : c ∈ Nat.toDigits 10 n := by
    rw [← Nat.toList_repr]
    exact h
  exact Nat.isDigit_of_mem_toDigits (by decide) (by decide) hDigits

/-- **The digits of a number need no escapes.** -/
theorem isPlain_toString (n : Nat) : IsPlain (toString n) := by
  have hEscaped : ∀ code ≤ '9'.toNat, '0'.toNat ≤ (Char.ofNat code).toNat →
      escapeDebug [Char.ofNat code] = [Char.ofNat code] := by decide +kernel
  intro c hMem
  obtain ⟨hLow, hHigh⟩ := Char.isDigit_iff_toNat.mp (isDigit_of_mem_toString hMem)
  exact of_toNat_le (P := fun c => '0'.toNat ≤ c.toNat → escapeDebug [c] = [c]) hEscaped
    hHigh hLow

end LiveMarkup.Text
