import LiveMarkup.Proofs.Text.Plain

/-!
# Lines

Texts are printed with a line feed behind each, and whoever reads what was printed
finds a line in front of every line feed. If no text holds a line feed itself the
texts are found again. Otherwise more lines are found than there were texts, and
the lines do not begin where the texts do.

## Main results

* `linesOf_printed` — texts without line feeds are found again.
* `isLine_of_length_linesOf` — **no text holds a line feed if there are as many lines
  as texts**.
-/

namespace LiveMarkup.Text

/-- The text can stand on a line. -/
def IsLine (s : String) : Prop :=
  '\n' ∉ s.toList

instance (s : String) : Decidable (IsLine s) :=
  inferInstanceAs (Decidable ('\n' ∉ s.toList))

@[simp] theorem isLine_append {s t : String} : IsLine (s ++ t) ↔ IsLine s ∧ IsLine t := by
  unfold IsLine
  rw [String.toList_append, List.mem_append, not_or]

theorem isLine_join {texts : List String} (h : ∀ s ∈ texts, IsLine s) :
    IsLine (String.join texts) := by
  unfold IsLine
  rw [String.toList_join, List.mem_flatMap]
  rintro ⟨s, hMem, hFeed⟩
  exact h s hMem hFeed

theorem isLine_toString (n : Nat) : IsLine (toString n) := by
  intro hFeed
  exact absurd (isDigit_of_mem_toString hFeed) (by decide)

/-! ## Printing -/

/-- Texts with a line feed behind each. -/
def printed (texts : List String) : String :=
  String.join (texts.map (· ++ "\n"))

/-- What stands in front of the line feeds of a text, piece by piece. -/
def linesOf (text : String) : List String :=
  (text.toList.splitOn '\n').dropLast.map String.ofList

theorem toList_printed_cons (s : String) (rest : List String) :
    (printed (s :: rest)).toList = s.toList ++ '\n' :: (printed rest).toList := by
  simp [printed, String.toList_join]

/-- **Texts without line feeds are found again.** -/
theorem linesOf_printed {texts : List String} (h : ∀ s ∈ texts, IsLine s) :
    linesOf (printed texts) = texts := by
  induction texts with
  | nil => rfl
  | cons s rest ih =>
      have hRest := ih fun other hMem => h other (List.mem_cons_of_mem s hMem)
      rw [linesOf, toList_printed_cons,
        List.splitOn_append_cons_self_of_not_mem (h s List.mem_cons_self),
        List.dropLast_cons_of_ne_nil (List.splitOn_ne_nil _ _), List.map_cons, String.ofList_toList]
      exact congrArg (s :: ·) hRest

theorem length_splitOn (c : Char) (text : List Char) :
    (text.splitOn c).length = text.count c + 1 := by
  induction text with
  | nil => simp
  | cons first rest ih =>
      rw [List.splitOn_cons_eq_if_modifyHead, List.count_cons]
      split
      · rw [List.length_cons, ih]
      · rw [List.length_modifyHead, ih]

theorem length_linesOf (text : String) : (linesOf text).length = text.toList.count '\n' := by
  rw [linesOf, List.length_map, List.length_dropLast, length_splitOn, Nat.add_sub_cancel]

theorem length_le_count_printed (texts : List String) :
    texts.length ≤ (printed texts).toList.count '\n' := by
  induction texts with
  | nil => exact Nat.zero_le _
  | cons s rest ih =>
      rw [toList_printed_cons, List.count_append, List.count_cons_self, List.length_cons]
      omega

/-- **No text holds a line feed if there are as many lines as texts.** -/
theorem isLine_of_length_linesOf {texts : List String}
    (h : (linesOf (printed texts)).length = texts.length) : ∀ s ∈ texts, IsLine s := by
  rw [length_linesOf] at h
  induction texts with
  | nil => exact fun _ hMem => absurd hMem List.not_mem_nil
  | cons s rest ih =>
      have hLe := length_le_count_printed rest
      rw [toList_printed_cons, List.count_append, List.count_cons_self, List.length_cons] at h
      intro other hMem
      rcases List.mem_cons.mp hMem with rfl | hRest
      · exact List.count_eq_zero.mp (by omega)
      · exact ih (by omega) other hRest

end LiveMarkup.Text
