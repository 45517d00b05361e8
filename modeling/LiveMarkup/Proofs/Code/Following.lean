import LiveMarkup.Proofs.Code.Enclosing

/-!
# Tokens in front of a space

Whatever token a text begins with, it begins with the same one where a space and any other
text follow. So it is with brackets and with comments, save one kind: a comment that goes
on to the end of its line is not ended by the end of the text, and swallows what follows.

## Main definitions

* `EndsInRemark` — a text is a comment to the end of the line, and ends with it.

## Main results

* `token?_space` — **a token is the same in front of a space**.
* `behindBlock_append`, `behindDocumentation_append` — a comment that is ended is the same
  in front of any text.
* `lexemes?_space` — **whatever a text begins with is the same in front of a space**, but
  for comments that are not ended.
-/

namespace LiveMarkup.Code

open Text (isIdentifierStart)
open Markup.Reader (EndsHere endsHere_cons takeWhile_append dropWhile_append)

variable {s behind : List Char}

/-! ## Tokens -/

theorem beginsPunct_eq (s : List Char) : beginsPunct s =
    (s.head?.any isPunct && !(['/', '/'].isPrefixOf s) && !(['/', '*'].isPrefixOf s)) := by
  unfold beginsPunct
  split
  · rfl
  · rfl
  · rename_i c rest hLine hBlock
    have hPrefix : ∀ d, (∀ tail, c = '/' → rest = d :: tail → False) →
        ['/', d].isPrefixOf (c :: rest) = false := by
      intro d hNone
      refine isPrefixOf_eq_false fun tail hText => ?_
      cases hText
      exact hNone tail rfl rfl
    rw [hPrefix '/' hLine, hPrefix '*' hBlock]
    simp
  · rfl

theorem beginsPunct_space (s t : List Char) : beginsPunct (s ++ ' ' :: t) = beginsPunct s := by
  rw [beginsPunct_eq, beginsPunct_eq, any_head?_space s t (by decide),
    isPrefixOf_space t (by decide), isPrefixOf_space t (by decide)]

/-! ### What is no literal -/

/-- What has none of the beginnings of literals in quotes, no quote and no digit is no
literal. -/
theorem literal?_eq_none {c : Char} {rest : List Char}
    (hMarks : (quotedMarks.any fun mark => mark.toList.isPrefixOf (c :: rest)) = false)
    (hDigit : c.isDigit = false) (hText : c ≠ '"') (hCharacter : c ≠ '\'') :
    literal? (c :: rest) = none := by
  have hQuoted : quoted? (c :: rest) = none :=
    quoted?_eq_none hMarks (fun hHead => hText (Option.some.inj hHead))
      fun hHead => hCharacter (Option.some.inj hHead)
  rw [literal?, hQuoted, number?, if_neg (by simpa using hDigit)]
  rfl

theorem literal?_eq_none_space (hLiteral : literal? s = none) {t : List Char}
    (hQuoted : quoted? (s ++ ' ' :: t) = none) : literal? (s ++ ' ' :: t) = none := by
  obtain ⟨-, hNumber⟩ := Option.or_eq_none_iff.mp hLiteral
  rw [literal?, hQuoted, Option.none_or, number?_space, hNumber]
  rfl

/-- No literal in quotes begins with punctuation. -/
theorem quoted?_of_isPunct {c : Char} (h : isPunct c = true) (hQuote : c ≠ '\'')
    (rest : List Char) : quoted? (c :: rest) = none := by
  rw [quoted?_eq, Option.map_eq_none_iff]
  unfold between?
  split
  case h_9 => rfl
  case h_8 =>
      rename_i hText
      cases hText
      exact absurd rfl hQuote
  all_goals
    rename_i hText
    cases hText
    exact absurd h (by decide)

/-- A word begins with a character that may begin an identifier. -/
theorem head_of_behindWord? {rest : List Char} (h : behindWord? s = some rest) :
    ∃ c tail, s = c :: tail ∧ isIdentifierStart c = true := by
  rw [behindWord?] at h
  split at h
  · rename_i hMark
    obtain ⟨tail, rfl⟩ := List.isPrefixOf_iff_prefix.mp hMark
    exact ⟨'r', '#' :: tail, rfl, by decide⟩
  · obtain ⟨⟨word, _⟩, hWord, -⟩ := Option.map_eq_some_iff.mp h
    obtain ⟨⟨c, tail, rfl, hStart, -⟩, rfl, -⟩ := isWord_of_word? hWord
    exact ⟨c, _, rfl, hStart⟩

theorem head_of_wordToken? {found : Token × List Char} (h : wordToken? s = some found) :
    ∃ c tail, s = c :: tail ∧ isIdentifierStart c = true := by
  obtain ⟨token, behind⟩ := found
  obtain ⟨text, hText, rfl, -⟩ := wordToken?_sound h
  cases hText with
  | word hWord =>
      obtain ⟨c, tail, rfl, hStart, -⟩ := hWord
      exact ⟨c, _, rfl, hStart⟩
  | rawWord _ _ => exact ⟨'r', _, rfl, by decide⟩

/-- What begins with a word is no literal in quotes. -/
theorem quoted?_of_wordToken? {found : Token × List Char} (h : wordToken? s = some found) :
    quoted? s = none := by
  obtain ⟨c, tail, rfl, hStart⟩ := head_of_wordToken? h
  refine quoted?_eq_none ?_ ?_ ?_
  · rw [wordToken?] at h
    split at h
    · cases h
    · rename_i hMarks
      exact Bool.eq_false_iff.mpr hMarks
  · rintro hHead
    cases hHead
    exact absurd hStart (by decide)
  · rintro hHead
    cases hHead
    exact absurd hStart (by decide)

/-- A quote in front of a word is part of no literal in front of a space if it is part of
none where the text ends. -/
theorem quoted?_quote_space {rest : List Char} (hWord : behindWord? s = some rest)
    (hQuoted : quoted? ('\'' :: s) = none) (t : List Char) :
    quoted? ('\'' :: (s ++ ' ' :: t)) = none := by
  obtain ⟨c, tail, rfl, hStart⟩ := head_of_behindWord? hWord
  have hBackslash : c ≠ '\\' := by
    rintro rfl
    exact absurd hStart (by decide)
  rw [quoted?_eq, Option.map_eq_none_iff] at hQuoted ⊢
  have hNone : Alphabet.characters.behindCharacter (c :: tail) = none :=
    Option.map_eq_none_iff.mp hQuoted
  have hSpaced : Alphabet.characters.behindCharacter (c :: (tail ++ ' ' :: t)) = none := by
    cases tail with
    | nil => simp [Alphabet.behindCharacter, hBackslash]
    | cons d tail =>
        by_cases hEnd : d = '\''
        · subst hEnd
          simp [Alphabet.behindCharacter, Alphabet.allows] at hNone
        · simp [Alphabet.behindCharacter, hBackslash, hEnd]
  exact Option.map_eq_none_iff.mpr hSpaced

theorem behindQuote?_space {found : Token × List Char} (h : behindQuote? s = some found)
    (t : List Char) : behindQuote? (s ++ ' ' :: t) = some (before (' ' :: t) found) := by
  simp only [behindQuote?, Option.bind_eq_bind, Option.bind_eq_some_iff] at h
  obtain ⟨rest, hWord, h⟩ := h
  have hQuote := head?_space rest t (c := '\'') (by decide)
  have hMark := head?_space rest t (c := '#') (by decide)
  simp only [behindQuote?, behindWord?_space, hWord, Option.map_some, Option.bind_eq_bind,
    Option.bind_some, hQuote, hMark, isPrefixOf_space t (s := s) (p := ['r', '#']) (by decide)]
  split at h
  · cases h
  · rename_i hNoQuote
    rw [if_neg hNoQuote]
    split at h
    · cases h
    · rename_i hNoMark
      rw [if_neg hNoMark]
      split at h
      · rename_i hLiteral
        cases h
        obtain ⟨literal, hFound⟩ := Option.isSome_iff_exists.mp hLiteral
        rw [literal?_space hFound t]
        rfl
      · rename_i hLiteral
        obtain ⟨⟨name, behind⟩, hName, h⟩ := Option.bind_eq_some_iff.mp h
        have hSpaced := wordToken?_space s t
        rw [hName] at hSpaced
        have hNone := literal?_eq_none_space (Option.not_isSome_iff_eq_none.mp hLiteral)
          (quoted?_of_wordToken? hSpaced)
        rw [hNone, if_neg (by simp), hSpaced]
        dsimp only [Option.map_some, before, Option.bind_some] at h ⊢
        split at h
        · cases h
          rfl
        · cases h
          rfl
        · cases h

/-- What is no literal is told by its first character. -/
theorem token?_of_cons {c : Char} {rest : List Char}
    (hMark : errorMark.isPrefixOf (c :: rest) = false) (hLiteral : literal? (c :: rest) = none)
    (hQuote : c ≠ '\'') : token? (c :: rest) =
      if beginsPunct (c :: rest) then some (.punct c (beginsPunct rest), rest)
      else wordToken? (c :: rest) := by
  unfold token?
  rw [hMark, hLiteral]
  dsimp only
  split
  · cases ‹false = true›
  · split
    · rename_i hText
      cases hText
      exact absurd rfl hQuote
    · rename_i hText
      cases hText
      rfl
    · rename_i hText
      cases hText

theorem token?_quote {rest : List Char} (hLiteral : literal? ('\'' :: rest) = none) :
    token? ('\'' :: rest) = behindQuote? rest := by
  unfold token?
  rw [hLiteral]
  rfl

theorem token?_quote_space {rest : List Char} {found : Token × List Char}
    (hLiteral : literal? ('\'' :: rest) = none) (h : token? ('\'' :: rest) = some found)
    (t : List Char) : token? ('\'' :: rest ++ ' ' :: t) = some (before (' ' :: t) found) := by
  rw [token?_quote hLiteral] at h
  have hRead := h
  simp only [behindQuote?, Option.bind_eq_bind, Option.bind_eq_some_iff] at hRead
  obtain ⟨_, hWord, -⟩ := hRead
  have hQuoted := quoted?_quote_space hWord (Option.or_eq_none_iff.mp hLiteral).1 t
  have hNone := literal?_eq_none_space hLiteral hQuoted
  rw [List.cons_append] at hNone ⊢
  rw [token?_quote hNone, behindQuote?_space h t]

theorem token?_cons_space {c : Char} {rest : List Char} {found : Token × List Char}
    (hMark : errorMark.isPrefixOf (c :: rest) = false) (hLiteral : literal? (c :: rest) = none)
    (hQuote : c ≠ '\'') (h : token? (c :: rest) = some found) (t : List Char) :
    token? (c :: rest ++ ' ' :: t) = some (before (' ' :: t) found) := by
  rw [token?_of_cons hMark hLiteral hQuote] at h
  have hNoMark := (isPrefixOf_space t (p := errorMark) (by decide) (c :: rest)).trans hMark
  have hPunct := beginsPunct_space (c :: rest) t
  have hWord := wordToken?_space (c :: rest) t
  split at h
  · rename_i hHere
    cases h
    have hFirst : isPunct c = true := by
      rw [beginsPunct_eq, Bool.and_eq_true, Bool.and_eq_true] at hHere
      exact hHere.1.1
    have hQuoted := quoted?_of_isPunct hFirst hQuote (rest ++ ' ' :: t)
    have hNone := literal?_eq_none_space hLiteral hQuoted
    rw [List.cons_append] at hNoMark hNone hPunct ⊢
    rw [token?_of_cons hNoMark hNone hQuote, hPunct, if_pos hHere, beginsPunct_space]
    rfl
  · rename_i hHere
    rw [h, Option.map_some] at hWord
    have hNone := literal?_eq_none_space hLiteral (quoted?_of_wordToken? hWord)
    rw [List.cons_append] at hNoMark hNone hPunct hWord ⊢
    rw [token?_of_cons hNoMark hNone hQuote, hPunct, if_neg hHere, hWord]

/-- **A token is the same in front of a space.** -/
theorem token?_space {found : Token × List Char} (h : token? s = some found) (t : List Char) :
    token? (s ++ ' ' :: t) = some (before (' ' :: t) found) := by
  have hSpaced : errorMark.isPrefixOf (s ++ ' ' :: t) = errorMark.isPrefixOf s :=
    isPrefixOf_space t (by decide) s
  cases hMark : errorMark.isPrefixOf s with
  | true =>
      unfold token? at h ⊢
      rw [if_pos hMark] at h
      cases h
      rw [if_pos (hSpaced.trans hMark),
        List.drop_append_of_le_length (List.isPrefixOf_iff_prefix.mp hMark).length_le]
      rfl
  | false =>
      cases hLiteral : literal? s with
      | some literal =>
          unfold token? at h ⊢
          rw [hMark, hLiteral] at h
          cases h
          rw [hSpaced, hMark, literal?_space hLiteral t]
          rfl
      | none =>
          cases s with
          | nil => cases h
          | cons c rest =>
              by_cases hQuote : c = '\''
              · subst hQuote
                exact token?_quote_space hLiteral h t
              · exact token?_cons_space hMark hLiteral hQuote h t

/-- No token begins with a bracket, but for the mark of what could not be read. -/
theorem token?_of_bracket {c : Char} {lexeme : Lexeme} (h : bracket? c = some lexeme)
    (rest : List Char) : token? (c :: rest) =
      if errorMark.isPrefixOf (c :: rest) then
        some (.literal .other, (c :: rest).drop errorMark.length)
      else none := by
  unfold bracket? at h
  split at h
  case h_7 => cases h
  all_goals exact ite_congr rfl (fun _ => rfl) fun _ => rfl

/-! ## Lexemes -/

/-- A text is a comment that goes on to the end of its line, and so does the text. -/
def EndsInRemark (s : List Char) : Prop :=
  ∃ inside, s = '/' :: '/' :: inside ∧ '\n' ∉ inside

theorem endsInRemark_iff : EndsInRemark s ↔ ['/', '/'] <+: s ∧ '\n' ∉ s := by
  constructor
  · rintro ⟨inside, rfl, hLine⟩
    exact ⟨⟨inside, rfl⟩, by simpa using hLine⟩
  · rintro ⟨⟨inside, rfl⟩, hLine⟩
    exact ⟨inside, rfl, by simpa using hLine⟩

instance (s : List Char) : Decidable (EndsInRemark s) :=
  decidable_of_iff _ endsInRemark_iff.symm

theorem isDocumentation_eq (s : List Char) : isDocumentation s =
    ((['/', '/', '/'].isPrefixOf s && !(['/', '/', '/', '/'].isPrefixOf s)) ||
      ['/', '/', '!'].isPrefixOf s ||
      (['/', '*', '*'].isPrefixOf s && !(['/', '*', '*', '/'].isPrefixOf s) &&
        !(['/', '*', '*', '*'].isPrefixOf s)) ||
      ['/', '*', '!'].isPrefixOf s) := by
  unfold isDocumentation
  split
  · rfl
  · rename_i tail _ hFourth
    simp [isPrefixOf_eq_false (p := ['/']) hFourth]
  · rfl
  · rfl
  · rfl
  · rename_i tail hSlash hStar
    simp [isPrefixOf_eq_false (p := ['/']) hSlash, isPrefixOf_eq_false (p := ['*']) hStar]
  · rfl
  · rename_i _ hLine hLineMark _ _ hBlock hBlockMark
    simp [isPrefixOf_eq_false (p := ['/', '/', '/']) hLine,
      isPrefixOf_eq_false (p := ['/', '/', '!']) hLineMark,
      isPrefixOf_eq_false (p := ['/', '*', '*']) hBlock,
      isPrefixOf_eq_false (p := ['/', '*', '!']) hBlockMark]

theorem isDocumentation_space (s t : List Char) :
    isDocumentation (s ++ ' ' :: t) = isDocumentation s := by
  rw [isDocumentation_eq, isDocumentation_eq]
  repeat rw [isPrefixOf_space t (by decide)]

/-- A block comment ends where it does, whatever follows. -/
theorem behindBlock_append {depth : Nat} (h : behindBlock depth s = some behind) (t : List Char) :
    behindBlock depth (s ++ t) = some (behind ++ t) := by
  fun_induction behindBlock depth s with
  | case1 depth rest ih =>
      rw [List.cons_append, List.cons_append, behindBlock]
      exact ih h
  | case2 => cases h
  | case3 rest =>
      cases h
      rfl
  | case4 depth rest ih =>
      rw [List.cons_append, List.cons_append, behindBlock]
      exact ih h
  | case5 depth c rest hOpens hDepth hLast hCloses ih =>
      -- The comment is not ended yet, so there is a character behind `c` already.
      cases rest with
      | nil =>
          unfold behindBlock at h
          split at h <;> simp_all
      | cons d rest =>
          rw [List.cons_append, behindBlock]
          · exact ih h
          · rintro tail hSlash hText
            cases hText
            exact hOpens rest hSlash rfl
          · exact hDepth
          · rintro tail hOne hStar hText
            cases hText
            exact hLast rest hOne hStar rfl
          · rintro less tail hMore hStar hText
            cases hText
            exact hCloses less rest hMore hStar rfl
  | case6 => cases h

theorem two_lt_length_of_isDocumentation (h : isDocumentation s = true) : 2 < s.length := by
  unfold isDocumentation at h
  split at h <;> simp_all

theorem documentationTokens_append (h : isDocumentation s = true) (t : List Char) :
    documentationTokens (s ++ t) = documentationTokens s := by
  rw [documentationTokens, documentationTokens,
    List.getElem?_append_left (two_lt_length_of_isDocumentation h)]

/-- A comment that documents something is one to the end of its line or a block. -/
theorem begins_of_isDocumentation (h : isDocumentation s = true) :
    (∃ inside, s = '/' :: '/' :: inside) ∨ ∃ inside, s = '/' :: '*' :: inside := by
  unfold isDocumentation at h
  split at h
  · cases h
  · exact .inl ⟨_, rfl⟩
  · exact .inl ⟨_, rfl⟩
  · cases h
  · cases h
  · exact .inr ⟨_, rfl⟩
  · exact .inr ⟨_, rfl⟩
  · cases h

theorem ne_line_feed_of_mem {line : List Char} (h : '\n' ∉ line) :
    ∀ c ∈ line, (c != '\n') = true := by
  intro c hMem
  rw [bne_iff_ne]
  rintro rfl
  exact h hMem

/-- A line ends with the first line feed. -/
theorem takeWhile_line {line : List Char} (h : '\n' ∉ line) (rest : List Char) :
    (line ++ '\n' :: rest).takeWhile (· != '\n') = line :=
  takeWhile_append (ne_line_feed_of_mem h) (endsHere_cons rfl rest)

theorem dropWhile_line {line : List Char} (h : '\n' ∉ line) (rest : List Char) :
    (line ++ '\n' :: rest).dropWhile (· != '\n') = '\n' :: rest :=
  dropWhile_append (ne_line_feed_of_mem h) (endsHere_cons rfl rest)

/-- A comment that is no more than a text has the end of its line in it. -/
theorem exists_line {inside : List Char} (h : ¬ EndsInRemark ('/' :: '/' :: inside)) :
    ∃ line rest, inside = line ++ '\n' :: rest ∧ '\n' ∉ line := by
  have hMem : '\n' ∈ inside := by
    by_contra hNone
    exact h ⟨inside, rfl, hNone⟩
  obtain ⟨line, rest, hText, hLine⟩ := List.eq_append_cons_of_mem hMem
  exact ⟨line, rest, hText, hLine⟩

theorem behindDocumentation_line (inside : List Char) :
    behindDocumentation ('/' :: '/' :: inside) =
      if hasBareReturn ('/' :: '/' :: inside.takeWhile (· != '\n') ++
        (inside.dropWhile (· != '\n')).take 1) then none
      else some (inside.dropWhile (· != '\n')) :=
  rfl

/-- A comment that documents something is the same in front of any text, if it ends in
front of it. -/
theorem behindDocumentation_append (hDoc : isDocumentation s = true)
    (h : behindDocumentation s = some behind) (hEnds : ¬ EndsInRemark s) (t : List Char) :
    behindDocumentation (s ++ t) = some (behind ++ t) := by
  rcases begins_of_isDocumentation hDoc with ⟨inside, rfl⟩ | ⟨inside, rfl⟩
  · obtain ⟨line, rest, rfl, hLine⟩ := exists_line hEnds
    rw [behindDocumentation_line, takeWhile_line hLine, dropWhile_line hLine] at h
    rw [List.cons_append, List.cons_append, List.append_assoc, List.cons_append,
      behindDocumentation_line, takeWhile_line hLine, dropWhile_line hLine]
    split at h
    · cases h
    · rename_i hReturn
      cases h
      exact if_neg hReturn
  · rw [behindDocumentation] at h
    obtain ⟨hBlock, hReturn⟩ := Option.filter_eq_some_iff.mp h
    rw [List.cons_append, List.cons_append, behindDocumentation, behindBlock_append hBlock t]
    refine Option.filter_eq_some_iff.mpr ⟨rfl, ?_⟩
    rwa [take_append]

/-- **What a text begins with is the same in front of a space**, unless it is a comment to
the end of the line and the text ends with it. -/
theorem lexemes?_space {front : List Lexeme} (h : lexemes? s = some (front, behind))
    (hEnds : ¬ EndsInRemark s) (t : List Char) :
    lexemes? (s ++ ' ' :: t) = some (front, behind ++ ' ' :: t) := by
  have hSpaced := isDocumentation_space s t
  rcases lexemes?_cases h with ⟨hDoc, hBehind, rfl⟩ | ⟨hDoc, hToken | ⟨hNone, hBracket⟩⟩
  · rw [lexemes?_eq, if_pos (hSpaced.trans hDoc), behindDocumentation_append hDoc hBehind hEnds,
      documentationTokens_append hDoc]
    rfl
  · obtain ⟨found, hFound, rfl⟩ := hToken
    rw [lexemes?_eq, if_neg (by rw [hSpaced, hDoc]; decide), token?_space hFound t]
    rfl
  · obtain ⟨c, lexeme, rfl, hBracket, rfl⟩ := hBracket
    have hMark : ¬ errorMark.isPrefixOf (c :: behind) = true := by
      intro hMark
      rw [token?_of_bracket hBracket, if_pos hMark] at hNone
      cases hNone
    rw [← isPrefixOf_space t (p := errorMark) (by decide)] at hMark
    rw [lexemes?_eq, if_neg (by rw [hSpaced, hDoc]; decide), List.cons_append,
      token?_of_bracket hBracket]
    rw [List.cons_append] at hMark
    rw [if_neg hMark, List.head?_cons, Option.bind_some, hBracket]
    rfl

end LiveMarkup.Code
