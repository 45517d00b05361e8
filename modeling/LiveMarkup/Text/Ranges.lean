/-!
# Sets of characters as ranges of code points

A property of characters that a table defines is a list of closed ranges of code points. The tables
of this library are ascending and their ranges lie apart (`Ranges.Ascending`), which lets a look-up
stop at the first range that begins behind the code point it looks for.

## Main results

* `Ranges.contains_iff` — on an ascending table, the look-up finds a code point exactly when one of
  the ranges holds it.
-/

namespace LiveMarkup.Text

/-- Closed ranges of code points, each written as its first and its last. -/
abbrev Ranges := List (Nat × Nat)

namespace Ranges

/-- Whether the code point `n` lies in one of the ranges of an ascending table. -/
def contains : Ranges → Nat → Bool
  | [], _ => false
  | (first, last) :: rest, n =>
    if n < first then false else n ≤ last || contains rest n

/-- Every range is non-empty and ends before the next one begins. -/
def Ascending : Ranges → Prop
  | [] => True
  | [(first, last)] => first ≤ last
  | (first, last) :: (first', last') :: rest =>
    first ≤ last ∧ last < first' ∧ Ascending ((first', last') :: rest)

theorem Ascending.tail {range : Nat × Nat} {rest : Ranges} (h : Ascending (range :: rest)) :
    Ascending rest := by
  cases rest with
  | nil => trivial
  | cons next rest => exact h.2.2

/-- In an ascending table no later range begins before an earlier one. -/
theorem Ascending.first_le {range : Nat × Nat} {rest : Ranges} (h : Ascending (range :: rest)) :
    ∀ r ∈ rest, range.1 ≤ r.1 := by
  induction rest generalizing range with
  | nil => intro r hr; cases hr
  | cons next rest ih =>
    intro r hr
    have hstep : range.1 ≤ next.1 := Nat.le_trans h.1 (Nat.le_of_lt h.2.1)
    rcases List.mem_cons.mp hr with rfl | hr
    · exact hstep
    · exact Nat.le_trans hstep (ih h.tail r hr)

/-- **The look-up is membership**: on an ascending table a code point is found exactly when some
range holds it. -/
theorem contains_iff {table : Ranges} (h : table.Ascending) (n : Nat) :
    table.contains n = true ↔ ∃ r ∈ table, r.1 ≤ n ∧ n ≤ r.2 := by
  induction table with
  | nil => simp [contains]
  | cons range rest ih =>
    simp only [contains, List.mem_cons, exists_eq_or_imp]
    split
    · rename_i hlt
      simp only [Bool.false_eq_true, false_iff, not_or, not_and, not_exists, Nat.not_le]
      refine ⟨fun hle => absurd hlt (Nat.not_lt.mpr hle), fun r hr hle => ?_⟩
      exact absurd hlt (Nat.not_lt.mpr (Nat.le_trans (h.first_le r hr) hle))
    · rename_i hge
      simp [ih h.tail, Nat.not_lt.mp hge]

end Ranges

end LiveMarkup.Text
