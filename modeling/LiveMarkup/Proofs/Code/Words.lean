import LiveMarkup.Proofs.Code.Cutting

/-!
# Words in a text

A word in a text is one lexeme, if what follows it neither goes on with it nor makes the
beginning of a literal of it. Words with double colons between them are a path, which is
read word by word. The other way round, a part of a text that is cut into a single word is
this word with nothing but separators around it.

## Main definitions

* `EndsWord` — a word ends in front of a text.
* `PathText`, `PlainPath` — words with double colons between them, and perhaps in front.

## Main results

* `reads_word` — **a word is read as it is written**.
* `PlainPath.reads` — a path is read word by word.
* `exists_word_of_reads` — **what is cut into one word is the word, between separators**.
-/

namespace LiveMarkup.Code

open Text (isIdentifierStart isIdentifierContinue)
open Markup.Reader (EndsHere dropWhile_append)

variable {s rest text : List Char} {token : Token}

/-- A word ends in front of a text: nothing there goes on with it, and no quote and no mark
makes the beginning of a literal of it. -/
def EndsWord (rest : List Char) : Prop :=
  ∀ c, rest.head? = some c → isIdentifierContinue c = false ∧ c ∉ ['"', '\'', '#']

theorem endsWord_cons {c : Char} (hContinue : isIdentifierContinue c = false)
    (hOther : c ∉ ['"', '\'', '#']) (rest : List Char) : EndsWord (c :: rest) := by
  intro d hHead
  cases hHead
  exact ⟨hContinue, hOther⟩

/-! ## Words -/

theorem isPunct_of_isIdentifierStart {c : Char} (h : isIdentifierStart c = true) :
    isPunct c = false := by
  have hNone : "~!@#$%^&*-=+|;:,<.>/?'".toList.all (!isIdentifierStart ·) = true := by decide
  rw [isPunct, decide_eq_false_iff_not]
  intro hMem
  have hHere := List.all_eq_true.mp hNone c hMem
  rw [h] at hHere
  cases hHere

/-- What begins like a word and like no literal is a word. -/
theorem token?_of_isIdentifierStart {c : Char} (hStart : isIdentifierStart c = true)
    (hMarks : (quotedMarks.any fun mark => mark.toList.isPrefixOf (c :: rest)) = false) :
    token? (c :: rest) = wordToken? (c :: rest) := by
  have hNe : ∀ d, isIdentifierStart d = false → c ≠ d := by
    rintro d hOther rfl
    rw [hStart] at hOther
    cases hOther
  have hMark : errorMark.isPrefixOf (c :: rest) = false := by
    refine isPrefixOf_eq_false fun tail hText => ?_
    exact hNe '(' (by decide) (List.cons.inj hText).1
  have hDigit : c.isDigit = false := by
    rw [Bool.eq_false_iff]
    intro hDigit
    have hDigits : ∀ n < 10, isIdentifierStart (Char.ofNat (48 + n)) = false := by decide
    obtain ⟨n, hLt, hChar⟩ := exists_digit hDigit
    exact hNe _ (hDigits n hLt) hChar
  have hLiteral : literal? (c :: rest) = none :=
    literal?_eq_none hMarks hDigit (hNe '"' (by decide)) (hNe '\'' (by decide))
  rw [token?_of_cons hMark hLiteral (hNe '\'' (by decide)), beginsPunct_eq, List.head?_cons,
    Option.any_some, isPunct_of_isIdentifierStart hStart]
  rfl

/-- A text that begins with a word has none of the beginnings that hold more than letters. -/
theorem not_prefix_of_isWord (hWord : IsWord text) (hEnds : EndsWord rest) {mark : List Char}
    {c : Char} (hMark : (mark.dropWhile isIdentifierContinue).head? = some c)
    (hOther : c ∈ ['"', '\'', '#']) : mark.isPrefixOf (text ++ rest) = false := by
  refine isPrefixOf_eq_false fun tail hText => ?_
  obtain ⟨more, hDrop⟩ : ∃ more, mark.dropWhile isIdentifierContinue = c :: more :=
    List.head?_eq_some_iff.mp hMark
  have hRest : (text ++ rest).dropWhile isIdentifierContinue = rest :=
    dropWhile_append (fun d hMem => hWord.isIdentifierContinue hMem) fun d hHead => (hEnds d hHead).1
  rw [hText, List.dropWhile_append, hDrop] at hRest
  have hHead : rest.head? = some c := by
    rw [← hRest]
    rfl
  exact (hEnds c hHead).2 hOther

theorem WordText.exists_head (h : WordText token text) :
    ∃ c tail, text = c :: tail ∧ isIdentifierStart c = true := by
  cases h with
  | word hWord =>
      obtain ⟨c, tail, hText, hStart, -⟩ := hWord
      exact ⟨c, tail, hText, hStart⟩
  | rawWord _ _ => exact ⟨'r', _, rfl, by decide⟩

/-- A word, and what follows it, has none of the beginnings of literals. -/
theorem WordText.quotedMarks_eq_false (h : WordText token text) (hEnds : EndsWord rest) :
    (quotedMarks.any fun mark => mark.toList.isPrefixOf (text ++ rest)) = false := by
  rw [List.any_eq_false]
  intro mark hMem
  cases h with
  | word hWord =>
      have hHeads : ∀ mark ∈ quotedMarks,
          (mark.toList.dropWhile isIdentifierContinue).head? ∈ ['"', '\'', '#'].map some := by
        decide
      obtain ⟨c, hOther, hMark⟩ := List.mem_map.mp (hHeads mark hMem)
      rw [not_prefix_of_isWord hWord hEnds hMark.symm hOther]
      exact Bool.false_ne_true
  | rawWord hWord _ =>
      obtain ⟨c, tail, rfl, hStart, -⟩ := hWord
      have hQuote : '"' ≠ c := by
        rintro rfl
        exact absurd hStart (by decide)
      have hMark : '#' ≠ c := by
        rintro rfl
        exact absurd hStart (by decide)
      simp only [quotedMarks, List.mem_cons, List.not_mem_nil, or_false] at hMem
      rcases hMem with rfl | rfl | rfl | rfl | rfl | rfl | rfl | rfl | rfl | rfl <;>
        simp [List.isPrefixOf, hQuote, hMark]

/-- **A word is a token as it is written.** -/
theorem token?_of_wordText (h : WordText token text) (hEnds : EndsWord rest) :
    token? (text ++ rest) = some (token, rest) := by
  have hMarks := h.quotedMarks_eq_false hEnds
  have hStop : EndsHere isIdentifierContinue rest := fun d hHead => (hEnds d hHead).1
  obtain ⟨c, tail, hText, hStart⟩ := h.exists_head
  have hWordToken : token? (text ++ rest) = wordToken? (text ++ rest) := by
    rw [hText, List.cons_append] at hMarks ⊢
    exact token?_of_isIdentifierStart hStart hMarks
  rw [hWordToken, wordToken?, hMarks]
  cases h with
  | word hWord =>
      have hNotRaw : ['r', '#'].isPrefixOf (text ++ rest) = false :=
        not_prefix_of_isWord hWord hEnds (c := '#') (by decide) (by decide)
      rw [hNotRaw, word?_of_isWord hWord hStop]
      rfl
  | @rawWord word hWord hRaw =>
      have hRead : rawWord? ('r' :: '#' :: word ++ rest) = some (word, rest) := by
        rw [List.cons_append, List.cons_append, rawWord?, word?_of_isWord hWord hStop]
        exact Option.filter_eq_some_iff.mpr ⟨rfl, by simpa using hRaw⟩
      rw [hRead]
      rfl

/-- **A word is read as it is written.** -/
theorem reads_word (h : WordText token text) (hEnds : EndsWord rest) :
    Reads (text ++ rest) [.token token] rest := by
  have hToken := token?_of_wordText h hEnds
  obtain ⟨c, tail, rfl, hStart⟩ := h.exists_head
  have hSlash : c ≠ '/' := by
    rintro rfl
    exact absurd hStart (by decide)
  have hDoc : isDocumentation (c :: tail ++ rest) = false := by
    rw [Bool.eq_false_iff]
    intro hDoc
    rcases begins_of_isDocumentation hDoc with ⟨inside, hText⟩ | ⟨inside, hText⟩
    · exact hSlash (List.cons.inj hText).1
    · exact hSlash (List.cons.inj hText).1
  refine .single ?_ ?_
  · rw [lexemes?_eq, hDoc, hToken]
    rfl
  · rintro ⟨inside, hText, -⟩
    exact hSlash (List.cons.inj hText).1

/-- A blank between two words is passed over. -/
theorem reads_blank (s : List Char) : Reads (' ' :: s) [] s := by
  refine .apart rfl ?_ (.here s)
  rintro ⟨inside, hText, -⟩
  cases hText

/-- A word that is known, with a blank behind it. -/
theorem reads_known (word : String) (hWord : IsWord word.toList) (s : List Char) :
    Reads (word.toList ++ ' ' :: s) [.token (.word word)] s := by
  have hText : WordText (.word word) word.toList := by simpa using WordText.word hWord
  exact (reads_word hText (endsWord_cons (by decide) (by decide) s)).trans (reads_blank s)

/-! ## Paths -/

/-- Words with double colons between them, and the tokens that they are. -/
inductive PathText : List Char → List Token → Prop where
  | word {text : List Char} {token : Token} (hWord : WordText token text) : PathText text [token]
  | joint {text rest : List Char} {token : Token} {tokens : List Token}
      (hWord : WordText token text) (hRest : PathText rest tokens) :
      PathText (text ++ ':' :: ':' :: rest)
        (token :: .punct ':' true :: .punct ':' false :: tokens)

theorem PathText.exists_head {path : List Char} {tokens : List Token} (h : PathText path tokens) :
    ∃ c tail, path = c :: tail ∧ isIdentifierStart c = true := by
  cases h with
  | word hWord => exact hWord.exists_head
  | joint hWord _ =>
      obtain ⟨c, tail, rfl, hStart⟩ := hWord.exists_head
      exact ⟨c, _, rfl, hStart⟩

/-- A path does not begin with punctuation. -/
theorem PathText.beginsPunct_eq_false {path : List Char} {tokens : List Token}
    (h : PathText path tokens) (rest : List Char) : beginsPunct (path ++ rest) = false := by
  obtain ⟨c, tail, rfl, hStart⟩ := h.exists_head
  rw [beginsPunct_eq, List.cons_append, List.head?_cons, Option.any_some,
    isPunct_of_isIdentifierStart hStart]
  rfl

/-- A colon is a character of punctuation. -/
theorem reads_colon (s : List Char) :
    Reads (':' :: s) [.token (.punct ':' (beginsPunct s))] s := by
  refine .single rfl ?_
  rintro ⟨inside, hText, -⟩
  cases hText

/-- A double colon is read as two characters of punctuation. -/
theorem reads_joint (hNext : beginsPunct s = false) :
    Reads (':' :: ':' :: s) [.token (.punct ':' true), .token (.punct ':' false)] s := by
  have hSecond := reads_colon s
  rw [hNext] at hSecond
  exact (reads_colon (':' :: s)).trans hSecond

/-- **A path is read word by word.** -/
theorem PathText.reads {path : List Char} {tokens : List Token} (h : PathText path tokens)
    (hEnds : EndsWord rest) : Reads (path ++ rest) (tokens.map .token) rest := by
  induction h with
  | word hWord => exact reads_word hWord hEnds
  | @joint text behind token tokens hWord hRest ih =>
      rw [List.append_assoc]
      exact (reads_word hWord (endsWord_cons (by decide) (by decide) _)).trans
        ((reads_joint (hRest.beginsPunct_eq_false rest)).trans ih)

/-- A path, which may begin with a double colon, and the tokens that it is. -/
inductive PlainPath : List Char → List Token → Prop where
  | relative {path : List Char} {tokens : List Token} (hPath : PathText path tokens) :
      PlainPath path tokens
  | rooted {path : List Char} {tokens : List Token} (hPath : PathText path tokens) :
      PlainPath (':' :: ':' :: path) (.punct ':' true :: .punct ':' false :: tokens)

theorem PlainPath.reads {path : List Char} {tokens : List Token} (h : PlainPath path tokens)
    (hEnds : EndsWord rest) : Reads (path ++ rest) (tokens.map .token) rest := by
  cases h with
  | relative hPath => exact hPath.reads hEnds
  | rooted hPath => exact (reads_joint (hPath.beginsPunct_eq_false rest)).trans (hPath.reads hEnds)

/-! ## Single words -/

/-- Every lexeme is something. -/
theorem front_ne_nil {front : List Lexeme} {behind : List Char}
    (h : lexemes? s = some (front, behind)) : front ≠ [] := by
  rcases lexemes?_cases h with ⟨-, -, rfl⟩ | ⟨-, ⟨found, -, rfl⟩ | ⟨-, c, lexeme, -, -, rfl⟩⟩
  · rw [documentationTokens]
    exact List.cons_ne_nil _ _
  · exact List.cons_ne_nil _ _
  · exact List.cons_ne_nil _ _

/-- A single token that may be an identifier is a word as it is written. -/
theorem wordText_of_lexemes? {behind : List Char}
    (h : lexemes? s = some ([.token token], behind)) (hWord : token.identifier?.isSome = true) :
    ∃ name, WordText token name ∧ s = name ++ behind ∧ EndsHere isIdentifierContinue behind := by
  rcases lexemes?_cases h with ⟨-, -, hDoc⟩ |
    ⟨-, ⟨found, hFound, hToken⟩ | ⟨-, c, lexeme, -, hBracket, hToken⟩⟩
  · rw [documentationTokens] at hDoc
    split at hDoc <;> cases hDoc
  · cases hToken
    rcases token?_cases hFound with ⟨_, rfl⟩ | ⟨_, rfl⟩ | ⟨_, _, rfl⟩ | hRead
    · cases hWord
    · cases hWord
    · cases hWord
    · exact wordToken?_sound hRead
  · cases hToken
    unfold bracket? at hBracket
    split at hBracket <;> cases hBracket

/-- What is cut into nothing is nothing but separators. -/
theorem exists_separators (h : Reads s [] rest) :
    ∃ front, s = front ++ rest ∧ ∀ c, front.head? = some c → c = '/' ∨ isSeparator c = true := by
  generalize hNone : ([] : List Lexeme) = lexemes at h
  induction h with
  | here s => exact ⟨[], rfl, fun _ hHead => nomatch hHead⟩
  | apart hSeparator _ _ ih =>
      obtain ⟨c, tail, rfl, hFirst⟩ := exists_separator hSeparator
      obtain ⟨front, rfl, -⟩ := ih hNone
      refine ⟨c :: (tail ++ front), by simp, ?_⟩
      rintro d hHead
      cases hHead
      exact hFirst
  | lexeme hFront _ _ _ =>
      exact absurd (List.append_eq_nil_iff.mp hNone.symm).1 (front_ne_nil hFront)

/-- **What is cut into one word is the word, between separators.** -/
theorem exists_word_of_reads (h : Reads s [.token token] rest)
    (hWord : token.identifier?.isSome = true) :
    ∃ name behind, Reads s [] (name ++ behind) ∧ WordText token name ∧
      EndsHere isIdentifierContinue behind ∧ Reads behind [] rest := by
  generalize hOne : [Lexeme.token token] = lexemes at h
  induction h with
  | here s => cases hOne
  | apart hSeparator hEnds _ ih =>
      obtain ⟨name, behind, hReads, hText⟩ := ih hOne
      exact ⟨name, behind, .apart hSeparator hEnds hReads, hText⟩
  | @lexeme s behind rest front lexemes hFront hEnds hRest _ =>
      cases front with
      | nil => exact absurd rfl (front_ne_nil hFront)
      | cons first front =>
          obtain ⟨rfl, hNone⟩ := List.cons.inj hOne
          obtain ⟨rfl, rfl⟩ := List.append_eq_nil_iff.mp hNone.symm
          obtain ⟨name, hName, rfl, hStop⟩ := wordText_of_lexemes? hFront hWord
          exact ⟨name, behind, .here _, hName, hStop, hRest⟩

end LiveMarkup.Code
