/-!
# Positions in a text

A position is kept in three units at once: the number of characters before it, its line and its
column. Lines are ended by line feeds only, so a carriage return is a character like any other; lines
and columns count from one.

## Main results

* `Position.offset_advance`, `Position.line_advance` — moving over a text adds its length to the
  offset and its line feeds to the line.
* `Position.advance_append` — moving over two texts is moving over the first, then the second.
-/

namespace LiveMarkup.Text

/-- A place in a text. -/
structure Position where
  /-- Number of characters before the position. -/
  offset : Nat
  /-- One more than the number of line feeds before the position. -/
  line : Nat
  /-- One more than the number of characters since the last line feed. -/
  column : Nat
  deriving DecidableEq, Repr

namespace Position

/-- The beginning of a text. -/
def start : Position := ⟨0, 1, 1⟩

/-- The position behind the character `c` at `p`. -/
def after (p : Position) (c : Char) : Position :=
  if c = '\n' then ⟨p.offset + 1, p.line + 1, 1⟩ else ⟨p.offset + 1, p.line, p.column + 1⟩

/-- The position behind the text `s` at `p`. -/
def advance (p : Position) (s : List Char) : Position :=
  s.foldl after p

@[simp] theorem advance_nil (p : Position) : p.advance [] = p := rfl

@[simp] theorem advance_cons (p : Position) (c : Char) (s : List Char) :
    p.advance (c :: s) = (p.after c).advance s := rfl

/-- Moving over two texts is moving over the first, then the second. -/
theorem advance_append (p : Position) (s t : List Char) :
    p.advance (s ++ t) = (p.advance s).advance t := by
  simp [advance]

@[simp] theorem offset_after (p : Position) (c : Char) : (p.after c).offset = p.offset + 1 := by
  unfold after; split <;> rfl

/-- Moving over a text adds its length to the offset. -/
theorem offset_advance (p : Position) (s : List Char) :
    (p.advance s).offset = p.offset + s.length := by
  induction s generalizing p with
  | nil => rfl
  | cons c s ih => simp only [advance_cons, ih, offset_after, List.length_cons]; omega

/-- Moving over a text adds its line feeds to the line. -/
theorem line_advance (p : Position) (s : List Char) :
    (p.advance s).line = p.line + s.count '\n' := by
  induction s generalizing p with
  | nil => rfl
  | cons c s ih =>
    rw [advance_cons, ih, after]
    split
    · rename_i h; subst h; simp only [List.count_cons_self]; omega
    · rename_i h; simp [h]

end Position

end LiveMarkup.Text
