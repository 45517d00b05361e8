import LiveMarkup.Proofs.Code.Following

/-!
# Texts that are cut into lexemes part by part

A text is cut into lexemes from its front: what separates is passed over, and what a lexeme
begins is taken. A part of a text that is cut this way, up to where a lexeme or a separator
ends, is cut the same where a space and more text follow, and the rest is cut on its own.
So texts that are put together, with spaces between them, are cut into the lexemes of each.

The one exception is a text that ends in a comment to the end of the line. The comment goes
on in what follows, up to the line feed, and nothing on the line is a lexeme any more.

## Main definitions

* `Cuts` — a text is cut into lexemes.
* `separator?` — the text behind one separator.
* `Reads` — a text is cut into lexemes up to a rest.
* `Trailing` — what is left of a text in the end: nothing, or a comment to the end of the
  line.

## Main results

* `Reads.cuts_iff` — a part of a text and the rest of it are cut on their own.
* `exists_reads` — **a text that is cut is read up to nothing, or up to a comment**.
* `Reads.space` — what is read of a text is read in front of a space.
* `Trailing.cuts_iff` — **a comment swallows what follows on its line**.
-/

namespace LiveMarkup.Code

open Text (isIdentifierStart isIdentifierContinue isBlank)
open Markup.Reader (endsHere_nil takeWhile_append dropWhile_append)

variable {s behind rest : List Char} {lexemes others : List Lexeme}

/-- A text is cut into lexemes, in whatever number of steps. -/
def Cuts (s : List Char) (lexemes : List Lexeme) : Prop :=
  ∃ limit, lexemesWithin limit s = some lexemes

/-! ## Separators -/

/-- The text behind one separator: white space or a comment that documents nothing. -/
def separator? (s : List Char) : Option (List Char) :=
  if isDocumentation s then none
  else match s with
    | '/' :: '/' :: rest => some (rest.dropWhile (· != '\n'))
    | '/' :: '*' :: rest => behindBlock 1 rest
    | c :: rest => if isSeparator c then some rest else none
    | [] => none

/-- Separators are passed over one by one. -/
theorem skipSeparators_succ (limit : Nat) (s : List Char) :
    skipSeparators (limit + 1) s =
      match separator? s with
      | some behind => skipSeparators limit behind
      | none => s := by
  conv_lhs => unfold skipSeparators
  unfold separator?
  split
  · rfl
  · split
    · rfl
    · split <;> simp_all
    · split <;> simp_all
    · rfl

/-- A block comment is a part of its text. -/
theorem exists_block {depth : Nat} (h : behindBlock depth s = some behind) :
    ∃ block, s = block ++ behind := by
  fun_induction behindBlock depth s with
  | case1 depth rest ih =>
      obtain ⟨block, rfl⟩ := ih h
      exact ⟨'/' :: '*' :: block, rfl⟩
  | case2 => cases h
  | case3 rest =>
      cases h
      exact ⟨['*', '/'], rfl⟩
  | case4 depth rest ih =>
      obtain ⟨block, rfl⟩ := ih h
      exact ⟨'*' :: '/' :: block, rfl⟩
  | case5 depth c rest _ _ _ _ ih =>
      obtain ⟨block, rfl⟩ := ih h
      exact ⟨c :: block, rfl⟩
  | case6 => cases h

/-- A separator is a part of its text and begins with white space or a slash. -/
theorem exists_separator (h : separator? s = some behind) :
    ∃ c tail, s = c :: (tail ++ behind) ∧ (c = '/' ∨ isSeparator c = true) := by
  unfold separator? at h
  split at h
  · cases h
  · rename_i hDoc
    split at h
    · rename_i rest
      cases h
      refine ⟨'/', '/' :: rest.takeWhile (· != '\n'), ?_, .inl rfl⟩
      rw [List.cons_append, List.takeWhile_append_dropWhile]
    · obtain ⟨block, rfl⟩ := exists_block h
      exact ⟨'/', '*' :: block, rfl, .inl rfl⟩
    · rename_i c rest _ _
      split at h
      · rename_i hSeparator
        cases h
        exact ⟨c, [], rfl, .inr hSeparator⟩
      · cases h
    · cases h

theorem separator?_length_lt (h : separator? s = some behind) : behind.length < s.length := by
  obtain ⟨c, tail, rfl, -⟩ := exists_separator h
  simp only [List.length_cons, List.length_append]
  omega

/-- There are never more separators than characters. -/
theorem skipSeparators_eq {limit other : Nat} (h : s.length < limit) (hOther : s.length < other) :
    skipSeparators limit s = skipSeparators other s := by
  induction limit generalizing s other with
  | zero => cases h
  | succ limit ih =>
      obtain ⟨other, rfl⟩ : ∃ less, other = less + 1 := ⟨other - 1, by omega⟩
      rw [skipSeparators_succ, skipSeparators_succ]
      cases hStep : separator? s with
      | none => rfl
      | some behind =>
          have hLess := separator?_length_lt hStep
          exact ih (by omega) (by omega)

/-- A separator in front changes nothing. -/
theorem lexemesWithin_separator (h : separator? s = some behind) (limit : Nat) :
    lexemesWithin limit s = lexemesWithin limit behind := by
  cases limit with
  | zero => rfl
  | succ limit =>
      have hSkip : skipSeparators (s.length + 1) s = skipSeparators (behind.length + 1) behind := by
        rw [skipSeparators_succ, h]
        exact skipSeparators_eq (separator?_length_lt h) (Nat.lt_succ_self _)
      rw [lexemesWithin, hSkip, ← lexemesWithin]

theorem cuts_separator_iff (h : separator? s = some behind) :
    Cuts s lexemes ↔ Cuts behind lexemes := by
  rw [Cuts, Cuts]
  exact exists_congr fun limit => by rw [lexemesWithin_separator h]

theorem cuts_nil_iff : Cuts [] lexemes ↔ lexemes = [] := by
  constructor
  · rintro ⟨limit, h⟩
    cases limit with
    | zero => cases h
    | succ limit =>
        cases h
        rfl
  · rintro rfl
    exact ⟨1, rfl⟩

/-! ## Lexemes -/

/-- A character that is no punctuation, no part of a word, no quote and no bracket. -/
def isPlain (c : Char) : Bool :=
  !isPunct c && !isIdentifierContinue c && c != '"' && (bracket? c).isNone

theorem exists_digit {c : Char} (h : c.isDigit = true) : ∃ n < 10, c = Char.ofNat (48 + n) := by
  simp only [Char.isDigit, ge_iff_le, Bool.and_eq_true, decide_eq_true_eq] at h
  have hLeast : 48 ≤ c.toNat := UInt32.le_iff_toNat_le.mp h.1
  have hMost : c.toNat ≤ 57 := UInt32.le_iff_toNat_le.mp h.2
  refine ⟨c.toNat - 48, by omega, ?_⟩
  rw [Nat.add_sub_cancel' hLeast, Char.ofNat_toNat]

theorem isIdentifierContinue_of_isDigit {c : Char} (h : c.isDigit = true) :
    isIdentifierContinue c = true := by
  have hDigits : ∀ n < 10, isIdentifierContinue (Char.ofNat (48 + n)) = true := by decide
  obtain ⟨n, hLt, rfl⟩ := exists_digit h
  exact hDigits n hLt

/-- No token begins with a plain character. -/
theorem token?_of_isPlain {c : Char} (h : isPlain c = true) (rest : List Char) :
    token? (c :: rest) = none := by
  have hNe : ∀ d, isPlain d = false → c ≠ d := by
    rintro d hOther rfl
    rw [h] at hOther
    cases hOther
  simp only [isPlain, Bool.and_eq_true, Bool.not_eq_true'] at h
  obtain ⟨⟨⟨hPunct, hContinue⟩, -⟩, -⟩ := h
  have hFront : ∀ text : List Char, text.head?.any (!isPlain ·) = true →
      text.isPrefixOf (c :: rest) = false := by
    intro text hOther
    obtain ⟨d, hHead, hNone⟩ := (Option.any_eq_true _ _).mp hOther
    obtain ⟨tail, rfl⟩ := List.head?_eq_some_iff.mp hHead
    refine isPrefixOf_eq_false fun tail hText => ?_
    exact hNe d (by simpa using hNone) (List.cons.inj hText).1
  have hMarks : (quotedMarks.any fun mark => mark.toList.isPrefixOf (c :: rest)) = false := by
    have hHeads : ∀ mark ∈ quotedMarks, mark.toList.head?.any (!isPlain ·) = true := by decide
    rw [List.any_eq_false]
    intro mark hMem
    rw [hFront _ (hHeads mark hMem)]
    exact Bool.false_ne_true
  have hDigit : c.isDigit = false := by
    rw [Bool.eq_false_iff]
    intro hDigit
    rw [isIdentifierContinue_of_isDigit hDigit] at hContinue
    cases hContinue
  have hLiteral : literal? (c :: rest) = none :=
    literal?_eq_none hMarks hDigit (hNe '"' (by decide)) (hNe '\'' (by decide))
  have hWord : wordToken? (c :: rest) = none := by
    rw [Option.eq_none_iff_forall_ne_some]
    rintro found hFound
    obtain ⟨d, tail, hText, hStart⟩ := head_of_wordToken? hFound
    cases hText
    rw [Text.isIdentifierContinue_of_start hStart] at hContinue
    cases hContinue
  have hNoPunct : beginsPunct (c :: rest) = false := by
    rw [beginsPunct_eq, List.head?_cons, Option.any_some, hPunct]
    rfl
  rw [token?_of_cons (hFront _ (by decide)) hLiteral (hNe '\'' (by decide)), hNoPunct, hWord]
  rfl

/-- No lexeme begins with a plain character. -/
theorem lexemes?_of_isPlain {c : Char} (h : isPlain c = true) (rest : List Char) :
    lexemes? (c :: rest) = none := by
  have hDoc : isDocumentation (c :: rest) = false := by
    rw [Bool.eq_false_iff]
    intro hDoc
    rcases begins_of_isDocumentation hDoc with ⟨inside, hText⟩ | ⟨inside, hText⟩
    · cases hText
      exact absurd h (by decide)
    · cases hText
      exact absurd h (by decide)
  have hBracket : bracket? c = none := by
    rw [isPlain, Bool.and_eq_true] at h
    exact Option.isNone_iff_eq_none.mp h.2
  rw [lexemes?_eq, hDoc, token?_of_isPlain h, List.head?_cons, Option.bind_some, hBracket]
  rfl

/-- White space between tokens is plain. -/
theorem isPlain_of_isSeparator {c : Char} (h : isSeparator c = true) : isPlain c = true := by
  rw [isSeparator, Bool.or_eq_true, Bool.or_eq_true, beq_iff_eq, beq_iff_eq] at h
  rcases h with (hBlank | rfl) | rfl
  · have hAscending : Text.blankRanges.Ascending := by
      simp [Text.blankRanges, Text.Ranges.Ascending]
    obtain ⟨range, hMem, hLeast, hMost⟩ := (Text.Ranges.contains_iff hAscending _).mp hBlank
    have hPlain : ∀ range ∈ Text.blankRanges, ∀ n < range.2 + 1 - range.1,
        isPlain (Char.ofNat (range.1 + n)) = true := by
      decide +kernel
    have hHere := hPlain range hMem (c.toNat - range.1) (by omega)
    rwa [Nat.add_sub_cancel' hLeast, Char.ofNat_toNat] at hHere
  · decide +kernel
  · decide +kernel

/-- What begins with a separator begins with no lexeme. -/
theorem separator?_eq_none_of_lexemes? {front : List Lexeme}
    (h : lexemes? s = some (front, behind)) : separator? s = none := by
  unfold separator?
  split
  · rfl
  · rename_i hDoc
    split
    · rename_i rest
      have hToken : token? ('/' :: '/' :: rest) = none := rfl
      rw [lexemes?_eq, if_neg hDoc, hToken] at h
      cases h
    · rename_i rest
      have hToken : token? ('/' :: '*' :: rest) = none := rfl
      rw [lexemes?_eq, if_neg hDoc, hToken] at h
      cases h
    · split
      · rename_i hSeparator
        rw [lexemes?_of_isPlain (isPlain_of_isSeparator hSeparator)] at h
        cases h
      · rfl
    · rfl

theorem lexemesWithin_succ (h : separator? s = none) (hNe : s ≠ []) (limit : Nat) :
    lexemesWithin (limit + 1) s =
      (lexemes? s).bind fun found => (lexemesWithin limit found.2).map (found.1 ++ ·) := by
  have hSkip : skipSeparators (s.length + 1) s = s := by
    rw [skipSeparators_succ, h]
  rw [lexemesWithin, hSkip]
  cases s with
  | nil => exact absurd rfl hNe
  | cons c s =>
      simp only [Option.bind_eq_bind]
      cases lexemes? (c :: s) with
      | none => rfl
      | some found =>
          simp only [Option.bind_some]
          cases lexemesWithin limit found.2 <;> rfl

/-- What is taken in front is in front of what the rest is cut into. -/
theorem cuts_lexemes_iff {front all : List Lexeme} (h : lexemes? s = some (front, behind)) :
    Cuts s all ↔ ∃ more, Cuts behind more ∧ all = front ++ more := by
  have hNone := separator?_eq_none_of_lexemes? h
  have hNe : s ≠ [] := by
    rintro rfl
    cases h
  constructor
  · rintro ⟨limit, hCut⟩
    cases limit with
    | zero => cases hCut
    | succ limit =>
        rw [lexemesWithin_succ hNone hNe, h, Option.bind_some, Option.map_eq_some_iff] at hCut
        obtain ⟨more, hMore, rfl⟩ := hCut
        exact ⟨more, ⟨limit, hMore⟩, rfl⟩
  · rintro ⟨more, ⟨limit, hMore⟩, rfl⟩
    refine ⟨limit + 1, ?_⟩
    rw [lexemesWithin_succ hNone hNe, h, Option.bind_some, hMore]
    rfl

/-- What begins with neither a separator nor a lexeme is not cut. -/
theorem not_cuts (hSeparator : separator? s = none) (hLexeme : lexemes? s = none)
    (hNe : s ≠ []) : ¬ Cuts s lexemes := by
  rintro ⟨limit, hCut⟩
  cases limit with
  | zero => cases hCut
  | succ limit =>
      rw [lexemesWithin_succ hSeparator hNe, hLexeme] at hCut
      cases hCut

/-- A byte-order mark in the middle of a text is not read. -/
theorem not_cuts_mark (s : List Char) (lexemes : List Lexeme) : ¬ Cuts ('\ufeff' :: s) lexemes :=
  not_cuts rfl (lexemes?_of_isPlain (by decide +kernel) s) (List.cons_ne_nil _ s)

/-! ## Parts -/

/-- A text is cut into lexemes up to a rest, without a comment that goes on in it. -/
inductive Reads : List Char → List Lexeme → List Char → Prop where
  | here (s : List Char) : Reads s [] s
  | apart {s behind rest : List Char} {lexemes : List Lexeme}
      (hSeparator : separator? s = some behind) (hEnds : ¬ EndsInRemark s)
      (hRest : Reads behind lexemes rest) : Reads s lexemes rest
  | lexeme {s behind rest : List Char} {front lexemes : List Lexeme}
      (hFront : lexemes? s = some (front, behind)) (hEnds : ¬ EndsInRemark s)
      (hRest : Reads behind lexemes rest) : Reads s (front ++ lexemes) rest

theorem Reads.single {front : List Lexeme} (hFront : lexemes? s = some (front, behind))
    (hEnds : ¬ EndsInRemark s) : Reads s front behind := by
  have hWhole := Reads.lexeme hFront hEnds (.here behind)
  rwa [List.append_nil] at hWhole

theorem Reads.trans (hFirst : Reads s lexemes behind) (hThen : Reads behind others rest) :
    Reads s (lexemes ++ others) rest := by
  induction hFirst with
  | here s => exact hThen
  | apart hSeparator hEnds _ ih => exact .apart hSeparator hEnds (ih hThen)
  | lexeme hFront hEnds _ ih =>
      rw [List.append_assoc]
      exact .lexeme hFront hEnds (ih hThen)

/-- A part of a text and the rest of it are cut on their own. -/
theorem Reads.cuts_iff (h : Reads s lexemes rest) {all : List Lexeme} :
    Cuts s all ↔ ∃ more, Cuts rest more ∧ all = lexemes ++ more := by
  induction h generalizing all with
  | here s => simp
  | apart hSeparator _ _ ih => rw [cuts_separator_iff hSeparator, ih]
  | @lexeme s behind rest front lexemes hFront _ _ ih =>
      rw [cuts_lexemes_iff hFront]
      constructor
      · rintro ⟨middle, hMiddle, rfl⟩
        obtain ⟨more, hMore, rfl⟩ := ih.mp hMiddle
        exact ⟨more, hMore, by rw [List.append_assoc]⟩
      · rintro ⟨more, hMore, rfl⟩
        exact ⟨lexemes ++ more, ih.mpr ⟨more, hMore, rfl⟩, by rw [List.append_assoc]⟩

/-! ## In front of a space -/

/-- No comment goes on where none did. -/
theorem not_endsInRemark_space (hNe : s ≠ []) (h : ¬ EndsInRemark s) (t : List Char) :
    ¬ EndsInRemark (s ++ ' ' :: t) := by
  rintro ⟨inside, hText, hLine⟩
  match s with
  | [] => exact hNe rfl
  | [c] => cases hText
  | c :: d :: s =>
      cases hText
      refine h ⟨s, rfl, fun hMem => hLine ?_⟩
      exact List.mem_append_left _ hMem

theorem separator?_space (h : separator? s = some behind) (hEnds : ¬ EndsInRemark s)
    (t : List Char) : separator? (s ++ ' ' :: t) = some (behind ++ ' ' :: t) := by
  unfold separator? at h ⊢
  rw [isDocumentation_space]
  split at h
  · cases h
  · rename_i hDoc
    rw [if_neg hDoc]
    split at h
    · rename_i rest
      obtain ⟨line, tail, rfl, hLine⟩ := exists_line hEnds
      rw [dropWhile_line hLine] at h
      cases h
      simp only [List.cons_append, List.append_assoc, dropWhile_line hLine]
    · exact behindBlock_append h _
    · rename_i c rest hLine hBlock
      split at h
      · rename_i hSeparator
        cases h
        have hSlash : c ≠ '/' := by
          rintro rfl
          exact absurd hSeparator (by decide)
        simp [hSlash, hSeparator]
      · cases h
    · cases h

/-- **What is read of a text is read in front of a space**, and the rest is left in front
of it. -/
theorem Reads.space (h : Reads s lexemes rest) (t : List Char) :
    Reads (s ++ ' ' :: t) lexemes (rest ++ ' ' :: t) := by
  induction h with
  | here s => exact .here _
  | @apart s behind rest lexemes hSeparator hEnds _ ih =>
      have hNe : s ≠ [] := by
        rintro rfl
        cases hSeparator
      exact .apart (separator?_space hSeparator hEnds t) (not_endsInRemark_space hNe hEnds t) ih
  | @lexeme s behind rest front lexemes hFront hEnds _ ih =>
      have hNe : s ≠ [] := by
        rintro rfl
        cases hFront
      exact .lexeme (lexemes?_space hFront hEnds t) (not_endsInRemark_space hNe hEnds t) ih

/-! ## The end of a text -/

/-- What is left of a text in the end, and the lexemes that it is: nothing, or a comment to
the end of the line, which may document something. -/
inductive Trailing : List Char → List Lexeme → Prop where
  | nothing : Trailing [] []
  | remark {s : List Char} (hEnds : EndsInRemark s) (hRemark : isDocumentation s = false) :
      Trailing s []
  | documentation {s : List Char} (hEnds : EndsInRemark s) (hDoc : isDocumentation s = true)
      (hReturn : '\r' ∉ s) : Trailing s ((documentationTokens s).map .token)

theorem Trailing.eq_nil (h : Trailing [] lexemes) : lexemes = [] := by
  cases h with
  | nothing => rfl
  | remark _ _ => rfl
  | documentation _ hDoc _ => cases hDoc

theorem takeWhile_lastLine {line : List Char} (h : '\n' ∉ line) :
    line.takeWhile (· != '\n') = line := by
  have hWhole := takeWhile_append (ne_line_feed_of_mem h) endsHere_nil
  rwa [List.append_nil] at hWhole

theorem dropWhile_lastLine {line : List Char} (h : '\n' ∉ line) :
    line.dropWhile (· != '\n') = [] := by
  have hWhole := dropWhile_append (ne_line_feed_of_mem h) endsHere_nil
  rwa [List.append_nil] at hWhole

/-- A separator that ends in a comment is the whole text. -/
theorem separator?_eq_some_of_endsInRemark (hEnds : EndsInRemark s)
    (hRemark : isDocumentation s = false) : separator? s = some [] := by
  obtain ⟨inside, rfl, hLine⟩ := hEnds
  unfold separator?
  rw [hRemark]
  exact congrArg some (dropWhile_lastLine hLine)

/-- Separators are read up to what is none, or up to a comment to the end of the line. -/
theorem exists_reads_separators {limit : Nat} (h : s.length < limit) :
    ∃ rest, Reads s [] rest ∧
      (skipSeparators limit s = rest ∧ separator? rest = none ∨
        skipSeparators limit s = [] ∧ Trailing rest []) := by
  induction limit generalizing s with
  | zero => cases h
  | succ limit ih =>
      rw [skipSeparators_succ]
      cases hStep : separator? s with
      | none => exact ⟨s, .here s, .inl ⟨rfl, hStep⟩⟩
      | some behind =>
          by_cases hEnds : EndsInRemark s
          · have hRemark : isDocumentation s = false := by
              rw [Bool.eq_false_iff]
              intro hDoc
              unfold separator? at hStep
              rw [if_pos hDoc] at hStep
              cases hStep
            rw [separator?_eq_some_of_endsInRemark hEnds hRemark] at hStep
            cases hStep
            refine ⟨s, .here s, .inr ⟨?_, .remark hEnds hRemark⟩⟩
            cases limit <;> rfl
          · have hLess := separator?_length_lt hStep
            obtain ⟨rest, hReads, hRest⟩ := ih (s := behind) (by omega)
            exact ⟨rest, .apart hStep hEnds hReads, hRest⟩

/-- Without a carriage return none is bare. -/
theorem hasBareReturn_of_not_mem (h : '\r' ∉ s) : hasBareReturn s = false := by
  fun_induction hasBareReturn s <;> simp_all

/-- On a line that has no end, a carriage return is bare. -/
theorem not_mem_of_hasBareReturn (h : hasBareReturn s = false) (hLine : '\n' ∉ s) :
    '\r' ∉ s := by
  fun_induction hasBareReturn s with
  | case1 => simp_all
  | case2 => cases h
  | case3 c rest hFeed hNone ih =>
      rw [List.mem_cons, not_or] at hLine ⊢
      exact ⟨fun hHere => hNone hHere.symm, ih h hLine.2⟩
  | case4 => simp

/-- A lexeme that ends in a comment is the comment, and the whole text. -/
theorem trailing_of_lexemes? {front : List Lexeme} (h : lexemes? s = some (front, behind))
    (hEnds : EndsInRemark s) : behind = [] ∧ Trailing s front := by
  have hDoc : isDocumentation s = true := by
    by_contra hRemark
    rw [Bool.not_eq_true] at hRemark
    have hNone := separator?_eq_none_of_lexemes? h
    rw [separator?_eq_some_of_endsInRemark hEnds hRemark] at hNone
    cases hNone
  have hWhole := hEnds
  rw [lexemes?_eq, if_pos hDoc, Option.map_eq_some_iff] at h
  obtain ⟨rest, hRest, hPair⟩ := h
  cases hPair
  obtain ⟨inside, rfl, hLine⟩ := hWhole
  rw [behindDocumentation_line, takeWhile_lastLine hLine, dropWhile_lastLine hLine] at hRest
  split at hRest
  · cases hRest
  · rename_i hReturn
    cases hRest
    rw [List.take_nil, List.append_nil, Bool.not_eq_true] at hReturn
    refine ⟨rfl, .documentation hEnds hDoc (not_mem_of_hasBareReturn hReturn ?_)⟩
    simpa using hLine

/-- **A text that is cut is read up to nothing, or up to a comment.** -/
theorem exists_reads (h : Cuts s lexemes) :
    ∃ front rest last, Reads s front rest ∧ Trailing rest last ∧ lexemes = front ++ last := by
  obtain ⟨limit, h⟩ := h
  induction limit generalizing s lexemes with
  | zero => cases h
  | succ limit ih =>
      obtain ⟨rest, hReads, ⟨hSkip, hNone⟩ | ⟨hSkip, hTrailing⟩⟩ :=
        exists_reads_separators (Nat.lt_succ_self s.length)
      · by_cases hNe : rest = []
        · subst hNe
          rw [lexemesWithin, hSkip] at h
          cases h
          exact ⟨[], [], [], hReads, .nothing, rfl⟩
        · have hCut : lexemesWithin (limit + 1) rest = some lexemes := by
            rw [lexemesWithin, hSkip] at h
            rw [lexemesWithin, skipSeparators_succ, hNone]
            exact h
          rw [lexemesWithin_succ hNone hNe, Option.bind_eq_some_iff] at hCut
          obtain ⟨⟨front, behind⟩, hFront, hCut⟩ := hCut
          obtain ⟨more, hMore, rfl⟩ := Option.map_eq_some_iff.mp hCut
          by_cases hEnds : EndsInRemark rest
          · obtain ⟨rfl, hTrailing⟩ := trailing_of_lexemes? hFront hEnds
            obtain rfl := cuts_nil_iff.mp ⟨limit, hMore⟩
            exact ⟨[], rest, front, hReads, hTrailing, List.append_nil front⟩
          · obtain ⟨next, last, trail, hNext, hTrailing, rfl⟩ := ih hMore
            refine ⟨front ++ next, last, trail, hReads.trans (.lexeme hFront hEnds hNext),
              hTrailing, ?_⟩
            rw [List.append_assoc]
      · rw [lexemesWithin, hSkip] at h
        cases h
        exact ⟨[], rest, [], hReads, hTrailing, rfl⟩

theorem cuts_feed_iff (t : List Char) : Cuts ('\n' :: t) lexemes ↔ Cuts t lexemes :=
  cuts_separator_iff rfl

/-- A comment that documents nothing swallows what follows on its line. -/
theorem cuts_remark_iff (hEnds : EndsInRemark rest) (hRemark : isDocumentation rest = false)
    {line : List Char} (hLine : '\n' ∉ line) (t : List Char) :
    Cuts (rest ++ ' ' :: (line ++ '\n' :: t)) lexemes ↔ Cuts t lexemes := by
  rw [← isDocumentation_space rest (line ++ '\n' :: t)] at hRemark
  obtain ⟨inside, rfl, hInside⟩ := hEnds
  have hWhole : '\n' ∉ inside ++ ' ' :: line := by simp [hInside, hLine]
  have hStep : separator? ('/' :: '/' :: inside ++ ' ' :: (line ++ '\n' :: t)) =
      some ('\n' :: t) := by
    unfold separator?
    rw [hRemark]
    have hDrop := dropWhile_line hWhole t
    rw [List.append_assoc, List.cons_append] at hDrop
    exact congrArg some hDrop
  rw [cuts_separator_iff hStep, cuts_feed_iff]

/-- **A comment swallows what follows on its line**, if it is not the end of the text. -/
theorem Trailing.cuts_iff {last all : List Lexeme} (h : Trailing rest last) (hNe : rest ≠ [])
    {line : List Char} (hLine : '\n' ∉ line) (hReturn : '\r' ∉ line) (t : List Char) :
    Cuts (rest ++ ' ' :: (line ++ '\n' :: t)) all ↔ ∃ more, Cuts t more ∧ all = last ++ more := by
  cases h with
  | nothing => exact absurd rfl hNe
  | remark hEnds hRemark =>
      rw [cuts_remark_iff hEnds hRemark hLine]
      simp
  | documentation hEnds hDoc hNoReturn =>
      have hTokens := documentationTokens_append hDoc (' ' :: (line ++ '\n' :: t))
      rw [← isDocumentation_space rest (line ++ '\n' :: t)] at hDoc
      obtain ⟨inside, rfl, hInside⟩ := hEnds
      have hWhole : '\n' ∉ inside ++ ' ' :: line := by simp [hInside, hLine]
      have hBare : hasBareReturn ('/' :: '/' :: (inside ++ ' ' :: line) ++ ['\n']) = false :=
        hasBareReturn_of_not_mem (by simp_all)
      have hText : '/' :: '/' :: inside ++ ' ' :: (line ++ '\n' :: t) =
          '/' :: '/' :: ((inside ++ ' ' :: line) ++ '\n' :: t) := by simp
      have hBehind : behindDocumentation ('/' :: '/' :: inside ++ ' ' :: (line ++ '\n' :: t)) =
          some ('\n' :: t) := by
        rw [hText, behindDocumentation_line, takeWhile_line hWhole, dropWhile_line hWhole]
        exact if_neg (by rw [List.take_succ_cons, List.take_zero, hBare]; decide)
      have hFront : lexemes? ('/' :: '/' :: inside ++ ' ' :: (line ++ '\n' :: t)) =
          some ((documentationTokens ('/' :: '/' :: inside)).map .token, '\n' :: t) := by
        rw [lexemes?_eq, if_pos hDoc, hBehind, hTokens]
        rfl
      rw [cuts_lexemes_iff hFront]
      simp only [cuts_feed_iff]

/-! ## Whole texts -/

/-- The tokens of a text are those of its lexemes, and only a byte-order mark in front is
left out. -/
theorem exists_cuts_of_tokens? {s : String} {tokens : List Token} (h : tokens? s = some tokens) :
    ∃ mark text lexemes, s.toList = mark ++ text ∧ (mark = [] ∨ mark = ['\ufeff']) ∧
      Cuts text lexemes ∧ Nests lexemes tokens := by
  obtain ⟨lexemes, hCut, hNest⟩ := Option.bind_eq_some_iff.mp h
  obtain ⟨content, hNests, rfl⟩ := nests_of_nest hNest
  split at hCut
  · rename_i text hMark
    exact ⟨['\ufeff'], text, lexemes, hMark, .inr rfl, ⟨_, hCut⟩, hNests⟩
  · exact ⟨[], s.toList, lexemes, rfl, .inl rfl, ⟨_, hCut⟩, hNests⟩

end LiveMarkup.Code
