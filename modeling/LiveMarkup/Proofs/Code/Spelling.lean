import LiveMarkup.Code.Token
import LiveMarkup.Proofs.Code.Nesting
import LiveMarkup.Proofs.Markup.Taking

/-!
# Words as they are written

A word is a character that may begin an identifier, with characters behind it that may go
on with one. A token that is a word is written as this word, with the mark in front of it
if it is a raw one, and nothing else stands in its text: what the lexer takes for a word
ends where no character goes on with it.

An identifier is a word that is no keyword, or a raw word.

## Main definitions

* `IsWord` — a text is a word.
* `WordText` — a token that is a word, and the text that it is written as.
* `IsIdentifier` — a text is one identifier from its beginning to its end.

## Main results

* `token?_cases` — all that a token can be.
* `wordToken?_sound` — a word is taken off a text as it is written.
* `wellSpelled_of_tokens?` — **the words of a text are words**.
-/

namespace LiveMarkup.Code

open Text (isIdentifierStart isIdentifierContinue)
open Markup.Reader (EndsHere dropWhile_append takeWhile_append)

/-- A character that may begin an identifier, and others that may go on with one. -/
def IsWord (text : List Char) : Prop :=
  ∃ first rest, text = first :: rest ∧ isIdentifierStart first = true ∧
    ∀ c ∈ rest, isIdentifierContinue c = true

instance (text : List Char) : Decidable (IsWord text) :=
  match text with
  | [] => isFalse fun ⟨_, _, h, _⟩ => nomatch h
  | first :: rest =>
      decidable_of_iff (isIdentifierStart first = true ∧ rest.all isIdentifierContinue = true)
        ⟨fun ⟨hFirst, hRest⟩ => ⟨first, rest, rfl, hFirst, List.all_eq_true.mp hRest⟩,
          fun ⟨_, _, hText, hFirst, hRest⟩ => by
            cases hText
            exact ⟨hFirst, List.all_eq_true.mpr hRest⟩⟩

/-- A token that is a word, and how it is written. -/
inductive WordText : Token → List Char → Prop where
  | word {text : List Char} (hWord : IsWord text) : WordText (.word (String.ofList text)) text
  | rawWord {text : List Char} (hWord : IsWord text) (hRaw : String.ofList text ∉ neverRaw) :
      WordText (.rawWord (String.ofList text)) ('r' :: '#' :: text)

/-- A text that is one identifier from its beginning to its end: a word that is no
keyword, or a raw word. -/
def IsIdentifier (text : List Char) : Prop :=
  ∃ token, WordText token text ∧ token.identifier?.isSome = true

/-! ## Words -/

theorem IsWord.isIdentifierContinue {text : List Char} (h : IsWord text) {c : Char}
    (hMem : c ∈ text) : isIdentifierContinue c = true := by
  obtain ⟨first, rest, rfl, hFirst, hRest⟩ := h
  rcases List.mem_cons.mp hMem with rfl | hMem
  · exact Text.isIdentifierContinue_of_start hFirst
  · exact hRest c hMem

/-- What is taken for a word is one, and it ends where no character goes on with it. -/
theorem isWord_of_word? {s text behind : List Char} (h : word? s = some (text, behind)) :
    IsWord text ∧ s = text ++ behind ∧ EndsHere isIdentifierContinue behind := by
  have hText := (word?_append h).symm
  cases s with
  | nil => cases h
  | cons c rest =>
      rw [word?] at h
      split at h
      · rename_i hStart
        cases h
        exact ⟨⟨c, _, rfl, hStart, List.all_eq_true.mp List.all_takeWhile⟩, hText,
          fun c hHead => Text.head_dropWhile hHead⟩
      · cases h

/-- What is taken for a raw word is one. -/
theorem isWord_of_rawWord? {s text behind : List Char} (h : rawWord? s = some (text, behind)) :
    IsWord text ∧ String.ofList text ∉ neverRaw ∧ s = 'r' :: '#' :: text ++ behind ∧
      EndsHere isIdentifierContinue behind := by
  unfold rawWord? at h
  split at h
  · obtain ⟨hRead, hRaw⟩ := Option.filter_eq_some_iff.mp h
    obtain ⟨hWord, rfl, hEnds⟩ := isWord_of_word? hRead
    exact ⟨hWord, by simpa using hRaw, rfl, hEnds⟩
  · cases h

/-- A word is taken for one where no character goes on with it. -/
theorem word?_of_isWord {text rest : List Char} (h : IsWord text)
    (hEnds : EndsHere isIdentifierContinue rest) : word? (text ++ rest) = some (text, rest) := by
  obtain ⟨first, behind, rfl, hFirst, hBehind⟩ := h
  rw [List.cons_append, word?, if_pos hFirst, takeWhile_append hBehind hEnds,
    dropWhile_append hBehind hEnds]

/-! ## Tokens -/

/-- A word is taken off a text as it is written. -/
theorem wordToken?_sound {s behind : List Char} {token : Token}
    (h : wordToken? s = some (token, behind)) :
    ∃ text, WordText token text ∧ s = text ++ behind ∧ EndsHere isIdentifierContinue behind := by
  rw [wordToken?] at h
  split at h
  · cases h
  · split at h
    · obtain ⟨⟨text, _⟩, hRead, hPair⟩ := Option.map_eq_some_iff.mp h
      cases hPair
      obtain ⟨hWord, hRaw, hText, hEnds⟩ := isWord_of_rawWord? hRead
      exact ⟨_, .rawWord hWord hRaw, hText, hEnds⟩
    · obtain ⟨⟨text, _⟩, hRead, hPair⟩ := Option.map_eq_some_iff.mp h
      cases hPair
      obtain ⟨hWord, hText, hEnds⟩ := isWord_of_word? hRead
      exact ⟨text, .word hWord, hText, hEnds⟩

/-- Behind a quote that is part of no literal there is a lifetime, or the quote is a
character of its own. -/
theorem behindQuote?_cases {s behind : List Char} {token : Token}
    (h : behindQuote? s = some (token, behind)) :
    (∃ name, token = .lifetime name) ∨ ∃ c joined, token = .punct c joined := by
  simp only [behindQuote?, Option.bind_eq_bind, Option.bind_eq_some_iff] at h
  obtain ⟨_, -, h⟩ := h
  split at h
  · cases h
  · split at h
    · cases h
    · split at h
      · cases h
        exact .inr ⟨_, _, rfl⟩
      · obtain ⟨⟨name, _⟩, -, h⟩ := Option.bind_eq_some_iff.mp h
        split at h
        · cases h
          exact .inl ⟨_, rfl⟩
        · cases h
          exact .inl ⟨_, rfl⟩
        · cases h

/-- All that a token can be at the beginning of a text: a literal, a lifetime, a character
of punctuation or a word. -/
theorem token?_cases {s behind : List Char} {token : Token} (h : token? s = some (token, behind)) :
    (∃ literal, token = .literal literal) ∨ (∃ name, token = .lifetime name) ∨
      (∃ c joined, token = .punct c joined) ∨ wordToken? s = some (token, behind) := by
  unfold token? at h
  split at h
  · cases h
    exact .inl ⟨_, rfl⟩
  · split at h
    · cases h
      exact .inl ⟨_, rfl⟩
    · split at h
      · rcases behindQuote?_cases h with hName | hPunct
        · exact .inr (.inl hName)
        · exact .inr (.inr (.inl hPunct))
      · split at h
        · cases h
          exact .inr (.inr (.inl ⟨_, _, rfl⟩))
        · exact .inr (.inr (.inr h))
      · cases h

/-! ## Lexemes -/

/-- The bracket that a character is. -/
def bracket? : Char → Option Lexeme
  | '(' => some (.opening .round)
  | ')' => some (.closing .round)
  | '[' => some (.opening .square)
  | ']' => some (.closing .square)
  | '\x7b' => some (.opening .curly)
  | '\x7d' => some (.closing .curly)
  | _ => none

/-- A text begins with a comment that documents something, with a token or with a
bracket. -/
theorem lexemes?_eq (s : List Char) : lexemes? s =
    if isDocumentation s then
      (behindDocumentation s).map fun behind => ((documentationTokens s).map .token, behind)
    else
      match token? s with
      | some (token, behind) => some ([.token token], behind)
      | none => s.head?.bind fun c => (bracket? c).map fun lexeme => ([lexeme], s.tail) := by
  unfold lexemes?
  refine if_congr Iff.rfl rfl ?_
  cases token? s with
  | some found => rfl
  | none =>
      cases s with
      | nil => rfl
      | cons c rest =>
          simp only [List.head?_cons, Option.bind_some, List.tail_cons, bracket?]
          split <;> simp_all

/-- All that a text can begin with: a comment that documents something, a token, or a
bracket. -/
theorem lexemes?_cases {s behind : List Char} {front : List Lexeme}
    (h : lexemes? s = some (front, behind)) :
    (isDocumentation s = true ∧ behindDocumentation s = some behind ∧
        front = (documentationTokens s).map .token) ∨
      isDocumentation s = false ∧
        ((∃ found, token? s = some (found, behind) ∧ front = [.token found]) ∨
          token? s = none ∧ ∃ c lexeme, s = c :: behind ∧ bracket? c = some lexeme ∧
            front = [lexeme]) := by
  rw [lexemes?_eq] at h
  split at h
  · rename_i hDoc
    obtain ⟨_, hBehind, hPair⟩ := Option.map_eq_some_iff.mp h
    cases hPair
    exact .inl ⟨hDoc, hBehind, rfl⟩
  · rename_i hDoc
    refine .inr ⟨Bool.eq_false_iff.mpr hDoc, ?_⟩
    split at h
    · rename_i found _ hRead
      cases h
      exact .inl ⟨found, hRead, rfl⟩
    · rename_i hNone
      obtain ⟨c, hHead, h⟩ := Option.bind_eq_some_iff.mp h
      obtain ⟨lexeme, hBracket, hPair⟩ := Option.map_eq_some_iff.mp h
      cases hPair
      exact .inr ⟨hNone, c, lexeme, (List.cons_head?_tail hHead).symm, hBracket, rfl⟩

/-- A token that is a word is written as one. -/
def Token.WellSpelled : Token → Prop
  | .word text => IsWord text.toList
  | .rawWord text => IsWord text.toList ∧ text ∉ neverRaw
  | _ => True

/-- A lexeme that is a word is written as one. -/
def Lexeme.WellSpelled : Lexeme → Prop
  | .token found => found.WellSpelled
  | _ => True

theorem WordText.wellSpelled {token : Token} {text : List Char} (h : WordText token text) :
    token.WellSpelled := by
  cases h with
  | word hWord => simpa [Token.WellSpelled] using hWord
  | rawWord hWord hRaw => exact ⟨by simpa using hWord, hRaw⟩

theorem wellSpelled_of_token? {s behind : List Char} {token : Token}
    (h : token? s = some (token, behind)) : token.WellSpelled := by
  rcases token?_cases h with ⟨_, rfl⟩ | ⟨_, rfl⟩ | ⟨_, _, rfl⟩ | hWord
  · trivial
  · trivial
  · trivial
  · obtain ⟨text, hText, -⟩ := wordToken?_sound hWord
    exact hText.wellSpelled

/-- The attribute that a comment stands for is made of marks, a keyword and a text. -/
theorem wellSpelled_of_documentation {s : List Char} {lexeme : Lexeme}
    (h : lexeme ∈ (documentationTokens s).map .token) : lexeme.WellSpelled := by
  obtain ⟨token, hMem, rfl⟩ := List.mem_map.mp h
  rw [documentationTokens] at hMem
  split at hMem
  all_goals
    simp only [List.cons_append, List.nil_append, List.mem_cons, List.not_mem_nil, or_false] at hMem
    rcases hMem with rfl | rfl | rfl <;> trivial

theorem wellSpelled_of_lexemes? {s behind : List Char} {front : List Lexeme}
    (h : lexemes? s = some (front, behind)) : ∀ lexeme ∈ front, lexeme.WellSpelled := by
  intro lexeme hMem
  rcases lexemes?_cases h with ⟨-, -, rfl⟩ |
    ⟨-, ⟨found, hRead, rfl⟩ | ⟨-, c, bracket, -, hBracket, rfl⟩⟩
  · exact wellSpelled_of_documentation hMem
  · obtain rfl := List.mem_singleton.mp hMem
    exact wellSpelled_of_token? hRead
  · obtain rfl := List.mem_singleton.mp hMem
    unfold bracket? at hBracket
    split at hBracket <;> cases hBracket <;> trivial

theorem wellSpelled_of_lexemesWithin {limit : Nat} {s : List Char} {lexemes : List Lexeme}
    (h : lexemesWithin limit s = some lexemes) : ∀ lexeme ∈ lexemes, lexeme.WellSpelled := by
  induction limit generalizing s lexemes with
  | zero => cases h
  | succ limit ih =>
      rw [lexemesWithin] at h
      split at h
      · cases h
        exact fun _ hMem => nomatch hMem
      · simp only [Option.bind_eq_bind, Option.bind_eq_some_iff] at h
        obtain ⟨⟨front, behind⟩, hFront, rest, hRest, hBoth⟩ := h
        cases hBoth
        intro lexeme hMem
        rcases List.mem_append.mp hMem with hMem | hMem
        · exact wellSpelled_of_lexemes? hFront lexeme hMem
        · exact ih hRest lexeme hMem

/-- **The words of a text are words**: what stands for one among the tokens of a text is
written as one, without a mark that is not its own. -/
theorem wellSpelled_of_tokens? {s : String} {tokens : List Token} (h : tokens? s = some tokens) :
    ∀ token ∈ tokens, token.WellSpelled := by
  intro token hMem
  obtain ⟨lexemes, hLexemes, hNest⟩ := Option.bind_eq_some_iff.mp h
  obtain ⟨content, hNests, rfl⟩ := nests_of_nest hNest
  rcases hNests.mem hMem with hLexeme | ⟨_, _, rfl⟩
  · exact wellSpelled_of_lexemesWithin hLexemes _ hLexeme
  · trivial

end LiveMarkup.Code
