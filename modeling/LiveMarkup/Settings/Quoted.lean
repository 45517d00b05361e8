import LiveMarkup.Text.Number

/-!
# Quoted texts in settings

A text stands between quotation marks or between apostrophes. Between quotation marks a backslash
begins an escape; between apostrophes everything stands for itself. Three marks in a row begin a text
of several lines: a line end right behind them is left out, every other one is a line feed, and up to
two marks in a row belong to the text. The last three of up to five in a row end it. Between three
quotation marks a backslash at the end of a line takes away the white space up to the next character.

Control characters other than the tab do not stand in a text as they are.
-/

namespace LiveMarkup.Settings

open Text (digitsValue? scalar?)

/-- Whether a character may stand in a line as it is. -/
def isPrintable (c : Char) : Bool :=
  c == '\t' || (' ' ≤ c && c ≠ '\x7f')

/-- White space within a line. -/
def isSpace (c : Char) : Bool :=
  c == ' ' || c == '\t'

/-- The text behind the end of a line. -/
def afterLineEnd? : List Char → Option (List Char)
  | '\n' :: rest => some rest
  | '\r' :: '\n' :: rest => some rest
  | _ => none

/-- The text behind white space and line ends. -/
def skipBlankLines : List Char → List Char
  | ' ' :: rest => skipBlankLines rest
  | '\t' :: rest => skipBlankLines rest
  | '\n' :: rest => skipBlankLines rest
  | '\r' :: '\n' :: rest => skipBlankLines rest
  | s => s

/-- A character by its code point in hexadecimal digits, and the text behind them. -/
def codePoint? (digits rest : List Char) : Option (Char × List Char) :=
  ((digitsValue? 16 0 digits).bind scalar?).map fun c => (c, rest)

/-- The character that an escape stands for, given the text behind its backslash, and the text behind
the escape. -/
def escape? : List Char → Option (Char × List Char)
  | 'b' :: rest => some ('\x08', rest)
  | 't' :: rest => some ('\t', rest)
  | 'n' :: rest => some ('\n', rest)
  | 'f' :: rest => some ('\x0c', rest)
  | 'r' :: rest => some ('\r', rest)
  | '"' :: rest => some ('"', rest)
  | '\\' :: rest => some ('\\', rest)
  | 'u' :: a :: b :: c :: d :: rest => codePoint? [a, b, c, d] rest
  | 'U' :: a :: b :: c :: d :: e :: f :: g :: h :: rest => codePoint? [a, b, c, d, e, f, g, h] rest
  | _ => none

/-- The text behind a backslash that ends a line, and behind the white space that it takes away. -/
def foldLine? (s : List Char) : Option (List Char) :=
  (afterLineEnd? (s.dropWhile isSpace)).map skipBlankLines

/-! ## How much is read -/

theorem skipBlankLines_length_le (s : List Char) : (skipBlankLines s).length ≤ s.length := by
  fun_induction skipBlankLines s with
  | case5 => exact Nat.le_refl _
  | _ => simp only [List.length_cons]; omega

theorem codePoint?_rest {digits rest left : List Char} {c : Char}
    (h : codePoint? digits rest = some (c, left)) : left = rest := by
  simp only [codePoint?, Option.map_eq_some_iff, Prod.mk.injEq] at h
  obtain ⟨_, _, _, rfl⟩ := h
  rfl

/-- Reading an escape leaves less text. -/
theorem escape?_length_lt {s left : List Char} {c : Char} (h : escape? s = some (c, left)) :
    left.length < s.length := by
  unfold escape? at h
  split at h
  case h_8 | h_9 =>
    rw [codePoint?_rest h]
    simp only [List.length_cons]
    omega
  case h_10 => cases h
  all_goals
    simp only [Option.some.injEq, Prod.mk.injEq] at h
    rw [← h.2]
    exact Nat.lt_succ_self _

theorem afterLineEnd?_length_lt {s left : List Char} (h : afterLineEnd? s = some left) :
    left.length < s.length := by
  unfold afterLineEnd? at h
  split at h
  case h_3 => cases h
  all_goals
    simp only [Option.some.injEq] at h
    subst h
    simp only [List.length_cons]
    omega

/-- Folding a line leaves less text. -/
theorem foldLine?_length_lt {s left : List Char} (h : foldLine? s = some left) :
    left.length < s.length := by
  simp only [foldLine?, Option.map_eq_some_iff] at h
  obtain ⟨behind, hBehind, rfl⟩ := h
  have hEnd := afterLineEnd?_length_lt hBehind
  have hSkip := skipBlankLines_length_le behind
  have hDrop : (s.dropWhile isSpace).length ≤ s.length := (List.dropWhile_sublist isSpace).length_le
  omega

/-! ## Reading -/

/-- What is read of a text, and what is left. -/
abbrev Reading := Option (List Char × List Char)

/-- A reading with more text in front. -/
def Reading.prepend (front : List Char) (reading : Reading) : Reading :=
  reading.map fun (text, left) => (front ++ text, left)

/-- A text on one line, up to the quotation mark that ends it. -/
def lineText? (s : List Char) : Reading :=
  match s with
  | [] => none
  | '"' :: rest => some ([], rest)
  | '\\' :: rest =>
    match h : escape? rest with
    | none => none
    | some (c, left) =>
      have : left.length < rest.length := escape?_length_lt h
      (lineText? left).prepend [c]
  | c :: rest => if isPrintable c then (lineText? rest).prepend [c] else none
termination_by s.length
decreasing_by all_goals (simp only [List.length_cons]; omega)

/-- A text on one line, up to the apostrophe that ends it. -/
def lineLiteral? : List Char → Reading
  | [] => none
  | '\'' :: rest => some ([], rest)
  | c :: rest => if isPrintable c then (lineLiteral? rest).prepend [c] else none

/-- The marks in front of the three that end a text, and the text behind them. -/
def closing? (mark : Char) : List Char → Reading
  | a :: b :: c :: d :: e :: rest =>
    if a = mark ∧ b = mark ∧ c = mark then
      if d = mark then
        if e = mark then some ([mark, mark], rest) else some ([mark], e :: rest)
      else some ([], d :: e :: rest)
    else none
  | [a, b, c, d] =>
    if a = mark ∧ b = mark ∧ c = mark then
      if d = mark then some ([mark], []) else some ([], [d])
    else none
  | [a, b, c] => if a = mark ∧ b = mark ∧ c = mark then some ([], []) else none
  | _ => none

/-- A text of several lines, up to the three quotation marks that end it. -/
def linesText? (s : List Char) : Reading :=
  match closing? '"' s with
  | some ending => some ending
  | none =>
    match s with
    | [] => none
    | '\n' :: rest => (linesText? rest).prepend ['\n']
    | '\r' :: '\n' :: rest => (linesText? rest).prepend ['\n']
    | '\\' :: rest =>
      match hFold : foldLine? rest with
      | some left =>
        have : left.length < rest.length := foldLine?_length_lt hFold
        linesText? left
      | none =>
        match h : escape? rest with
        | none => none
        | some (c, left) =>
          have : left.length < rest.length := escape?_length_lt h
          (linesText? left).prepend [c]
    | c :: rest => if isPrintable c then (linesText? rest).prepend [c] else none
termination_by s.length
decreasing_by all_goals (simp only [List.length_cons]; omega)

/-- A text of several lines, up to the three apostrophes that end it. -/
def linesLiteral? (s : List Char) : Reading :=
  match closing? '\'' s with
  | some ending => some ending
  | none =>
    match s with
    | [] => none
    | '\n' :: rest => (linesLiteral? rest).prepend ['\n']
    | '\r' :: '\n' :: rest => (linesLiteral? rest).prepend ['\n']
    | c :: rest => if isPrintable c then (linesLiteral? rest).prepend [c] else none

/-- A text without the line end that it begins with. -/
def skipLineEnd (s : List Char) : List Char :=
  (afterLineEnd? s).getD s

/-- A text in any of the four ways of writing one. -/
def quoted? : List Char → Reading
  | '"' :: '"' :: '"' :: rest => linesText? (skipLineEnd rest)
  | '\'' :: '\'' :: '\'' :: rest => linesLiteral? (skipLineEnd rest)
  | '"' :: rest => lineText? rest
  | '\'' :: rest => lineLiteral? rest
  | _ => none

end LiveMarkup.Settings
