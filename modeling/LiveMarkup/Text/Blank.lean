import LiveMarkup.Text.Ranges

/-!
# White space

The Unicode property White_Space, and the trimming of texts by it. A text is trimmed at both ends
and never inside.

## Main results

* `head_trimStart`, `getLast_trimEnd` — a trimmed end shows no white space.
-/

namespace LiveMarkup.Text

/-- Code points with the property White_Space. -/
def blankRanges : Ranges :=
  [(0x9, 0xd), (0x20, 0x20), (0x85, 0x85), (0xa0, 0xa0), (0x1680, 0x1680), (0x2000, 0x200a),
   (0x2028, 0x2029), (0x202f, 0x202f), (0x205f, 0x205f), (0x3000, 0x3000)]

/-- White space in the sense of Unicode. -/
def isBlank (c : Char) : Bool :=
  blankRanges.contains c.toNat

/-- Every character that core calls white space is blank. -/
theorem isBlank_of_isWhitespace (c : Char) (h : c.isWhitespace = true) : isBlank c = true := by
  simp [Char.isWhitespace] at h
  rcases h with ((h | h) | h) | h <;> subst h <;> decide

/-! ## Trimming -/

/-- `s` without its longest ending of characters in `p`. -/
def dropEndWhile (p : Char → Bool) (s : List Char) : List Char :=
  (s.reverse.dropWhile p).reverse

/-- `s` without the white space it begins with. -/
def trimStart (s : List Char) : List Char :=
  s.dropWhile isBlank

/-- `s` without the white space it ends with. -/
def trimEnd (s : List Char) : List Char :=
  dropEndWhile isBlank s

/-- `s` without the white space at its two ends. -/
def trim (s : List Char) : List Char :=
  trimEnd (trimStart s)

/-- What is left after `dropWhile` begins with a character outside the class. -/
theorem head_dropWhile {p : Char → Bool} {s : List Char} {c : Char}
    (h : (s.dropWhile p).head? = some c) : p c = false := by
  induction s with
  | nil => simp at h
  | cons a s ih =>
    rw [List.dropWhile_cons] at h
    split at h
    · exact ih h
    · rename_i ha
      simp only [List.head?_cons, Option.some.injEq] at h
      subst h
      simpa using ha

/-- A trimmed text does not begin with white space. -/
theorem head_trimStart {s : List Char} {c : Char} (h : (trimStart s).head? = some c) :
    isBlank c = false :=
  head_dropWhile h

/-- A trimmed text does not end with white space. -/
theorem getLast_trimEnd {s : List Char} {c : Char} (h : (trimEnd s).getLast? = some c) :
    isBlank c = false := by
  rw [trimEnd, dropEndWhile, List.getLast?_reverse] at h
  exact head_dropWhile h

end LiveMarkup.Text
