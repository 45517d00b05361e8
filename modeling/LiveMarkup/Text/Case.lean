/-!
# Texts that differ in case only

Letters of the Latin alphabet are folded, and no others: names in markup compare this way.
-/

namespace LiveMarkup.Text

/-- Whether two texts are equal but for the case of the letters A to Z. -/
def equalFold (s t : String) : Bool :=
  s.toList.map Char.toLower == t.toList.map Char.toLower

@[simp] theorem equalFold_self (s : String) : equalFold s s = true := by
  simp [equalFold]

theorem equalFold_comm (s t : String) : equalFold s t = equalFold t s := by
  simp only [equalFold]
  exact Bool.eq_iff_iff.mpr ⟨fun h => by simpa using (by simpa using h : _ = _).symm,
    fun h => by simpa using (by simpa using h : _ = _).symm⟩

end LiveMarkup.Text
