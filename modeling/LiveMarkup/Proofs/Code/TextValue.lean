import LiveMarkup.Code.Literal

/-!
# What string literals stand for

A string literal of code is a text between quotes. A reader of code looks for the
quote that ends it, and puts a character in the place of every escape. Here it is
said which text that gives.

## Main results

* `behindText_eq` — **a literal ends where a reader of code that does not ask for
  its value finds its end**.
-/

namespace LiveMarkup.Code

open Text (digitsValue?)

/-! ## Values -/

/-- The character that an escape stands for, and the text behind it, given the
text behind its backslash. -/
def escaped? : List Char → Option (Char × List Char)
  | 'x' :: a :: b :: rest =>
    ((digitsValue? 16 0 [a, b]).filter (· < 0x80)).map fun n => (Char.ofNat n, rest)
  | 'u' :: '\x7b' :: rest => codePoint? 0 0 rest
  | '0' :: rest => some ('\x00', rest)
  | 'n' :: rest => some ('\n', rest)
  | 'r' :: rest => some ('\r', rest)
  | 't' :: rest => some ('\t', rest)
  | '\\' :: rest => some ('\\', rest)
  | '\'' :: rest => some ('\'', rest)
  | '"' :: rest => some ('"', rest)
  | _ => none

/-- The value of a text and what stands behind the quote that ends it, given the
text behind the quote that begins it; at most `limit` characters and escapes. An
escaped line break stands for nothing, and one that is written with a carriage
return is one all the same. -/
def textValue? : Nat → List Char → Option (List Char × List Char)
  | 0, _ => none
  | limit + 1, s =>
    match s with
    | '"' :: rest => some ([], rest)
    | '\\' :: '\n' :: rest =>
      (Alphabet.behindLineBreak ('\n' :: rest)).bind fun rest => textValue? limit rest
    | '\\' :: '\r' :: rest =>
      (Alphabet.behindLineBreak ('\r' :: rest)).bind fun rest => textValue? limit rest
    | '\\' :: rest =>
      (escaped? rest).bind fun found =>
        (textValue? limit found.2).map fun read => (found.1 :: read.1, read.2)
    | '\r' :: '\n' :: rest => (textValue? limit rest).map fun read => ('\n' :: read.1, read.2)
    | '\r' :: _ => none
    | c :: rest => (textValue? limit rest).map fun read => (c :: read.1, read.2)
    | [] => none

/-- The value of the string literal that a text begins with, and the text behind
it. -/
def stringLiteral? : List Char → Option (String × List Char)
  | '"' :: rest =>
    (textValue? (rest.length + 1) rest).map fun (value, behind) => (String.ofList value, behind)
  | _ => none

/-! ## Ends -/

/-- An escape ends where a reader finds its end that does not ask for its value. -/
theorem behindEscape_eq (s : List Char) :
    Alphabet.characters.behindEscape s = (escaped? s).map Prod.snd := by
  unfold Alphabet.behindEscape
  split
  · have hNumber : Alphabet.characters.allowsNumber = fun n => decide (n < 0x80) := rfl
    rw [escaped?, hNumber, Option.map_map]
    rfl
  · have hAll : (fun found : Char × List Char => Alphabet.characters.allows found.1) =
        fun _ => true := rfl
    rw [escaped?, hAll]
    cases codePoint? 0 0 _ with
    | none => rfl
    | some found => rfl
  · rfl
  · rename_i c rest hNumber hPoint hNul
    split
    · rename_i hMem
      simp only [List.mem_cons, List.not_mem_nil, or_false] at hMem
      rcases hMem with rfl | rfl | rfl | rfl | rfl | rfl <;> rfl
    · rename_i hMem
      unfold escaped?
      split <;> simp_all
  · rfl

/-- **A literal ends where a reader finds its end that does not ask for its
value.** -/
theorem behindText_eq (limit : Nat) (s : List Char) :
    Alphabet.characters.behindText limit s = (textValue? limit s).map Prod.snd := by
  fun_induction textValue? limit s with
  | case1 s => unfold Alphabet.behindText; rfl
  | case2 limit rest => rfl
  | case3 limit rest ih =>
      rw [Alphabet.behindText, Option.map_bind]
      congr 1
      funext behind
      exact ih behind
  | case4 limit rest ih =>
      rw [Alphabet.behindText, Option.map_bind]
      congr 1
      funext behind
      exact ih behind
  | case5 limit rest hFeed hReturn ih =>
      rw [Alphabet.behindText, behindEscape_eq, Option.map_bind]
      · cases escaped? rest with
        | none => rfl
        | some found =>
            rw [Option.map_some, Option.bind_some, Option.bind_some, ih found,
              Function.comp_apply, Option.map_map]
            rfl
      · exact hFeed
      · exact hReturn
  | case6 limit rest ih =>
      rw [Alphabet.behindText, ih, Option.map_map]
      rfl
  | case7 limit rest hFeed =>
      rw [Alphabet.behindText]
      · rfl
      · intro h
        cases h
      · intro other behind _ h
        exact hFeed behind h
  | case8 limit c rest hQuote hFeed hReturn hSlash hBoth hBare ih =>
      rw [Alphabet.behindText, ih, Option.map_map]
      · rfl
      all_goals assumption
  | case9 limit => rfl

end LiveMarkup.Code
