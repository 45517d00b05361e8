import LiveMarkup.Text.Number

/-!
# Character references

In attribute values and character data an ampersand begins a reference, which a semicolon ends. It
names one of five characters, or gives the code point of any in decimal or hexadecimal. References are
replaced in one pass from left to right: what a reference stands for is not looked at again.
-/

namespace LiveMarkup.Markup.Reference

open Text (digitsValue? scalar?)

/-- A number in the given radix: an optional plus sign, and at least one digit. -/
def number? (radix : Nat) (s : List Char) : Option Nat :=
  let digits := match s with
    | '+' :: rest => rest
    | s => s
  if digits.isEmpty then none else digitsValue? radix 0 digits

/-- The character that a reference stands for, given what is written between its ampersand and its
semicolon. -/
def resolve? : List Char → Option Char
  | ['l', 't'] => some '<'
  | ['g', 't'] => some '>'
  | ['a', 'm', 'p'] => some '&'
  | ['q', 'u', 'o', 't'] => some '"'
  | ['a', 'p', 'o', 's'] => some '\''
  | '#' :: 'x' :: digits => (number? 16 digits).bind scalar?
  | '#' :: 'X' :: digits => (number? 16 digits).bind scalar?
  | '#' :: digits => (number? 10 digits).bind scalar?
  | _ => none

/-- The text before the first semicolon, and the text behind it. -/
def splitSemicolon : List Char → Option (List Char × List Char)
  | [] => none
  | ';' :: rest => some ([], rest)
  | c :: rest => (splitSemicolon rest).map fun (before, behind) => (c :: before, behind)

theorem splitSemicolon_length_lt {s before behind : List Char}
    (h : splitSemicolon s = some (before, behind)) : behind.length < s.length := by
  induction s generalizing before with
  | nil => simp [splitSemicolon] at h
  | cons c s ih =>
    by_cases hc : c = ';'
    · subst hc
      simp only [splitSemicolon, Option.some.injEq, Prod.mk.injEq] at h
      rw [← h.2]
      exact Nat.lt_succ_self _
    · rw [splitSemicolon] at h
      · simp only [Option.map_eq_some_iff, Prod.mk.injEq, Prod.exists] at h
        obtain ⟨before', behind', hs, _, rfl⟩ := h
        exact Nat.lt_succ_of_lt (ih hs)
      · exact hc

/-- The text with its references replaced. If one stands for no character, what is written in it; if
one is not ended, the beginning of what follows its ampersand, up to eight characters. -/
def decode (s : List Char) : Except (List Char) (List Char) :=
  match s with
  | [] => .ok []
  | '&' :: rest =>
    match h : splitSemicolon rest with
    | none => .error (rest.take 8)
    | some (reference, behind) =>
      match resolve? reference with
      | none => .error reference
      | some c => do
        have : behind.length < rest.length := splitSemicolon_length_lt h
        let text ← decode behind
        return c :: text
  | c :: rest => do
    let text ← decode rest
    return c :: text
termination_by s.length
decreasing_by all_goals (simp only [List.length_cons]; omega)

end LiveMarkup.Markup.Reference
