import LiveMarkup.Proofs.Code.Words
import LiveMarkup.Proofs.Template.Accepted
import LiveMarkup.Template.Rendering

/-!
# The items of loops as they are written

A loop binds an identifier, and its item is looked at token by token: it has to be a single
one. What separates tokens does not count in this, so there may be comments, marks for the
direction of writing and a byte-order mark around the identifier. The item is copied into
the head of the loop as it is written, with all of them. Block comments and marks of
direction do no harm there. A comment to the end of the line swallows the rest of the head,
and a byte-order mark is no token anywhere but in front of a text.

## Main definitions

* `ItemText` — an identifier and what may stand around it.
* `ItemText.Bare` — nothing stands around it.

## Main results

* `exists_itemText` — a text that is taken for an identifier is one, with its surroundings.
* `ItemText.isIdentifier_iff` — it is an identifier as it is written iff it is bare.
* `read?_item` — **the item of a loop that is read, and how the head of the loop is cut**.
-/

namespace LiveMarkup.Template

open Code (Token Lexeme WordText IsWord IsIdentifier Reads Cuts EndsInRemark Trailing)
open Text (isIdentifierContinue)

/-- An identifier, and what may stand around it: a byte-order mark, separators on both
sides, and a comment to the end of the line. -/
structure ItemText where
  mark : List Char
  front : List Char
  name : List Char
  behind : List Char
  remark : List Char
  token : Token
  isMark : mark = [] ∨ mark = ['\ufeff']
  isName : WordText token name
  isIdentifier : token.identifier?.isSome = true
  readsFront : Reads (front ++ (name ++ (behind ++ remark))) [] (name ++ (behind ++ remark))
  readsBehind : Reads (behind ++ remark) [] remark
  isRemark : remark = [] ∨ EndsInRemark remark ∧ Code.isDocumentation remark = false

namespace ItemText

/-- An item without the byte-order mark. -/
def body (item : ItemText) : List Char :=
  item.front ++ (item.name ++ (item.behind ++ item.remark))

/-- An item as it is written. -/
def chars (item : ItemText) : List Char :=
  item.mark ++ item.body

/-- Nothing stands around the identifier. -/
def Bare (item : ItemText) : Prop :=
  item.mark = [] ∧ item.front = [] ∧ item.behind = [] ∧ item.remark = []

/-! ## Around the identifier -/

/-- What stands around an identifier is no part of one. -/
theorem not_word_of_separator {c : Char} (h : c = '/' ∨ Code.isSeparator c = true) :
    isIdentifierContinue c = false ∧ c ∉ ['"', '\'', '#'] := by
  rcases h with rfl | hSeparator
  · decide
  · have hPlain := Code.isPlain_of_isSeparator hSeparator
    have hOther : ['"', '\'', '#'].all (!Code.isPlain ·) = true := by decide
    simp only [Code.isPlain, Bool.and_eq_true, Bool.not_eq_true'] at hPlain
    refine ⟨hPlain.1.1.2, fun hMem => ?_⟩
    have hNone := List.all_eq_true.mp hOther c hMem
    rw [Code.isPlain_of_isSeparator hSeparator] at hNone
    cases hNone

/-- The characters of an identifier are those of words, and the mark of a raw one. -/
theorem isIdentifierContinue_of_isIdentifier {text : List Char} (h : IsIdentifier text) {c : Char}
    (hMem : c ∈ text) : isIdentifierContinue c = true ∨ c = '#' := by
  obtain ⟨token, hText, -⟩ := h
  cases hText with
  | word hWord => exact .inl (hWord.isIdentifierContinue hMem)
  | rawWord hWord _ =>
      rcases List.mem_cons.mp hMem with rfl | hMem
      · exact .inl (by decide)
      · rcases List.mem_cons.mp hMem with rfl | hMem
        · exact .inr rfl
        · exact .inl (hWord.isIdentifierContinue hMem)

variable (item : ItemText)

/-- What stands behind the identifier begins with a separator. -/
theorem head_behind {c : Char} (h : (item.behind ++ item.remark).head? = some c) :
    c = '/' ∨ Code.isSeparator c = true := by
  obtain ⟨front, hParts, hHead⟩ := Code.exists_separators item.readsBehind
  obtain rfl := List.append_cancel_right hParts
  cases hBehind : item.behind with
  | cons d behind =>
      rw [hBehind] at h
      cases h
      exact hHead c (by rw [hBehind]; rfl)
  | nil =>
      rw [hBehind, List.nil_append] at h
      rcases item.isRemark with hNone | ⟨⟨inside, hText, -⟩, -⟩
      · rw [hNone] at h
        cases h
      · rw [hText] at h
        cases h
        exact .inl rfl

/-- What stands in front of the identifier begins with a separator. -/
theorem head_front {c : Char} (h : item.front.head? = some c) :
    c = '/' ∨ Code.isSeparator c = true := by
  obtain ⟨front, hParts, hHead⟩ := Code.exists_separators item.readsFront
  obtain rfl := List.append_cancel_right hParts
  exact hHead c h

/-- **An item is an identifier as it is written iff it is bare.** -/
theorem isIdentifier_iff : IsIdentifier item.chars ↔ item.Bare := by
  constructor
  · intro h
    have hNot : ∀ c ∈ item.chars, ¬ (c = '/' ∨ Code.isSeparator c = true) := by
      intro c hMem hSeparator
      obtain ⟨hContinue, hOther⟩ := not_word_of_separator hSeparator
      rcases isIdentifierContinue_of_isIdentifier h hMem with hWord | rfl
      · rw [hContinue] at hWord
        cases hWord
      · simp at hOther
    have hMark : item.mark = [] := by
      rcases item.isMark with hNone | hMark
      · exact hNone
      · have hMem : '\ufeff' ∈ item.chars := by simp [chars, hMark]
        exact absurd (isIdentifierContinue_of_isIdentifier h hMem) (by decide +kernel)
    have hFront : item.front = [] := by
      cases hText : item.front with
      | nil => rfl
      | cons c front =>
          refine absurd (item.head_front (by rw [hText]; rfl)) (hNot c ?_)
          simp [chars, body, hText]
    have hBehind : item.behind ++ item.remark = [] := by
      cases hText : item.behind ++ item.remark with
      | nil => rfl
      | cons c behind =>
          refine absurd (item.head_behind (by rw [hText]; rfl)) (hNot c ?_)
          simp [chars, body, hText]
    obtain ⟨hNone, hRemark⟩ := List.append_eq_nil_iff.mp hBehind
    exact ⟨hMark, hFront, hNone, hRemark⟩
  · rintro ⟨hMark, hFront, hBehind, hRemark⟩
    refine ⟨item.token, ?_, item.isIdentifier⟩
    simpa [chars, body, hMark, hFront, hBehind, hRemark] using item.isName

/-- Without its byte-order mark an item is read as its token, up to the comment at its
end. -/
theorem reads : Reads item.body [.token item.token] item.remark := by
  have hEnds : Code.EndsWord (item.behind ++ item.remark) := fun c hHead =>
    not_word_of_separator (item.head_behind hHead)
  exact item.readsFront.trans ((Code.reads_word item.isName hEnds).trans item.readsBehind)

end ItemText

/-- A lexeme that makes up an identifier is the only one. -/
theorem eq_of_nests {token : Token} {lexemes : List Lexeme} (h : Code.Nests lexemes [token])
    (hName : token.identifier?.isSome = true) : lexemes = [.token token] := by
  cases h with
  | token hRest =>
      cases hRest
      rfl
  | group _ _ => cases hName

/-- A text that is taken for an identifier is one, with what may stand around it. -/
theorem exists_itemText {s : String} (h : (Code.identifier? s).isSome = true) :
    ∃ item : ItemText, item.chars = s.toList := by
  rw [Code.identifier?] at h
  split at h
  · rename_i token hTokens
    obtain ⟨mark, text, lexemes, hText, hMark, hCut, hNests⟩ := Code.exists_cuts_of_tokens? hTokens
    obtain rfl := eq_of_nests hNests h
    obtain ⟨lexemes, rest, last, hReads, hTrailing, hParts⟩ := Code.exists_reads hCut
    obtain ⟨rfl, hRemark⟩ : lexemes = [.token token] ∧
        (rest = [] ∨ EndsInRemark rest ∧ Code.isDocumentation rest = false) := by
      cases hTrailing with
      | nothing => exact ⟨by simpa using hParts.symm, .inl rfl⟩
      | remark hEnds hRemark => exact ⟨by simpa using hParts.symm, .inr ⟨hEnds, hRemark⟩⟩
      | documentation _ _ _ =>
          -- A comment that documents something is more than one lexeme.
          have hLength := congrArg List.length hParts
          simp [Code.documentationTokens] at hLength
          omega
    obtain ⟨name, after, hFront, hName, -, hBehind⟩ := Code.exists_word_of_reads hReads h
    obtain ⟨behind, rfl, -⟩ := Code.exists_separators hBehind
    obtain ⟨front, rfl, -⟩ := Code.exists_separators hFront
    exact ⟨⟨mark, front, name, behind, rest, token, hMark, hName, h, hFront, hBehind, hRemark⟩,
      hText.symm⟩
  · cases h

/-! ## Heads -/

/-- The head of a loop, around its item. -/
theorem opening_each (loop : Loop) : (Head.each loop).opening.toList =
    "for".toList ++ ' ' :: (loop.item.toList ++ ' ' :: ("in".toList ++ ' ' ::
      ('(' :: (loop.collection.toList ++ [')', ' ', '\x7b'])))) := by
  have hFor : "for ".toList = "for".toList ++ [' '] := rfl
  have hIn : " in (".toList = ' ' :: ("in".toList ++ [' ', '(']) := rfl
  have hEnd : ") \x7b".toList = [')', ' ', '\x7b'] := rfl
  rw [Head.opening, String.toList_append, String.toList_append, String.toList_append,
    String.toList_append, hFor, hIn, hEnd]
  simp only [List.append_assoc, List.cons_append, List.nil_append]

/-- The beginning of a head is read up to its item. -/
theorem reads_for (s : List Char) :
    Reads ("for".toList ++ ' ' :: s) [.token (.word "for")] s :=
  Code.reads_known "for" (by decide) s

/-- An expression is on one line. -/
theorem line_feed_not_mem_collection {value : String} {loop : Loop}
    (h : Loop.read? value = some loop) : '\n' ∉ loop.collection.toList := by
  obtain ⟨hSplit, -⟩ := Loop.read?_eq_some_iff_split?.mp h
  obtain ⟨_, _, _, rest, -, -, -, -, -, -, -, hRead⟩ := Loop.split?_eq_some_iff.mp hSplit
  rcases Loop.collection?_eq_some_iff.mp hRead with ⟨_, _, -, -, -, -, -, hLine, -⟩ |
    ⟨_, _, left, _, -, -, -, -, hLine, -, hText⟩
  · exact hLine
  · rw [hText]
    exact fun hMem => hLine (List.mem_singleton.mp hMem).symm

namespace ItemText

variable (item : ItemText)

/-- Behind an item without a comment at its end the word of the head is read. -/
theorem cuts_head_iff (hMark : item.mark = []) (hRemark : item.remark = []) (rest : List Char)
    (all : List Lexeme) :
    Cuts ("for".toList ++ ' ' :: (item.chars ++ ' ' :: ("in".toList ++ ' ' :: rest))) all ↔
      ∃ more, Cuts rest more ∧
        all = [.token (.word "for"), .token item.token, .token (.word "in")] ++ more := by
  have hItem := item.reads.space ("in".toList ++ ' ' :: rest)
  rw [hRemark, List.nil_append] at hItem
  have hWhole := (reads_for _).trans (hItem.trans
    ((Code.reads_blank _).trans (Code.reads_known "in" (by decide) rest)))
  rw [chars, hMark, List.nil_append]
  exact hWhole.cuts_iff

/-- A comment at the end of an item swallows the rest of the head. -/
theorem cuts_remark_iff (hMark : item.mark = []) (hRemark : item.remark ≠ []) {line : List Char}
    (hLine : '\n' ∉ line) (rest : List Char) (all : List Lexeme) :
    Cuts ("for".toList ++ ' ' :: (item.chars ++ ' ' :: (line ++ '\n' :: rest))) all ↔
      ∃ more, Cuts rest more ∧ all = [.token (.word "for"), .token item.token] ++ more := by
  obtain ⟨hEnds, hDoc⟩ := item.isRemark.resolve_left hRemark
  have hWhole := (reads_for _).trans (item.reads.space (line ++ '\n' :: rest))
  rw [chars, hMark, List.nil_append, hWhole.cuts_iff]
  simp only [Code.cuts_remark_iff hEnds hDoc hLine]
  rfl

/-- A byte-order mark in the middle of a text is not read. -/
theorem not_cuts_mark (hMark : item.mark ≠ []) (rest : List Char) (all : List Lexeme) :
    ¬ Cuts ("for".toList ++ ' ' :: (item.chars ++ rest)) all := by
  rw [(reads_for _).cuts_iff, chars, item.isMark.resolve_left hMark]
  rintro ⟨more, hMore, -⟩
  exact Code.not_cuts_mark _ more hMore

end ItemText

/-- **The item of a loop that is read.** It is an identifier with what may stand around it,
and it is an identifier as it is written iff nothing does. The head of the loop is cut into
its own words and the identifier, whatever expression there is and whatever follows, if
neither a byte-order mark stands in front nor a comment at the end. In front of the mark
the text is not cut at all, and the comment takes the word and the rest of the line. -/
theorem read?_item {value : String} {loop : Loop} (h : Loop.read? value = some loop) :
    ∃ item : ItemText, item.chars = loop.item.toList ∧ Loop.Unbroken loop.item.toList ∧
      (IsIdentifier loop.item.toList ↔ item.Bare) ∧
      (item.mark = [] → item.remark = [] → ∀ rest all,
        Cuts ((Head.each loop).opening.toList ++ rest) all ↔
          ∃ more, Cuts ('(' :: (loop.collection.toList ++ [')', ' ', '\x7b'] ++ rest)) more ∧
            all = [.token (.word "for"), .token item.token, .token (.word "in")] ++ more) ∧
      (item.mark = [] → item.remark ≠ [] → ∀ rest all,
        Cuts ((Head.each loop).opening.toList ++ '\n' :: rest) all ↔
          ∃ more, Cuts rest more ∧ all = [.token (.word "for"), .token item.token] ++ more) ∧
      (item.mark ≠ [] → ∀ rest all, ¬ Cuts ((Head.each loop).opening.toList ++ rest) all) := by
  obtain ⟨hSplit, hName⟩ := Loop.read?_eq_some_iff_split?.mp h
  obtain ⟨_, _, _, _, -, -, hItem, -⟩ := Loop.split?_eq_some_iff.mp hSplit
  obtain ⟨item, hChars⟩ := exists_itemText hName
  refine ⟨item, hChars, hItem, hChars ▸ item.isIdentifier_iff, ?_, ?_, ?_⟩
  · intro hMark hRemark rest all
    have hHead := item.cuts_head_iff hMark hRemark
      ('(' :: (loop.collection.toList ++ [')', ' ', '\x7b'] ++ rest)) all
    rw [opening_each, ← hChars]
    simpa only [List.append_assoc, List.cons_append] using hHead
  · intro hMark hRemark rest all
    have hLine : '\n' ∉ "in".toList ++ ' ' ::
        ('(' :: (loop.collection.toList ++ [')', ' ', '\x7b'])) := by
      simp [line_feed_not_mem_collection h]
    have hHead := item.cuts_remark_iff hMark hRemark hLine rest all
    rw [opening_each, ← hChars]
    simpa only [List.append_assoc, List.cons_append] using hHead
  · intro hMark rest all
    rw [opening_each, ← hChars]
    simpa only [List.append_assoc, List.cons_append] using item.not_cuts_mark hMark _ all

/-- A keyword that is an identifier by its mark, and what its head is cut into. -/
theorem read?_item_raw :
    let loop : Loop := ⟨"r#type", "xs"⟩
    Loop.read? " r#type in xs" = some loop ∧ IsIdentifier loop.item.toList ∧
      ∃ token, ∀ rest all, Cuts ("for r#type in (xs) \x7b".toList ++ rest) all ↔
        ∃ more, Cuts ("(xs) \x7b".toList ++ rest) more ∧
          all = [.token (.word "for"), .token token, .token (.word "in")] ++ more := by
  intro loop
  have hRead : Loop.read? " r#type in xs" = some loop := by decide +kernel
  have hIdentifier : IsIdentifier loop.item.toList := by
    have hChars : loop.item.toList = ['r', '#', 't', 'y', 'p', 'e'] := by decide
    have hWord : IsWord ['t', 'y', 'p', 'e'] := by decide
    rw [hChars]
    exact ⟨_, .rawWord hWord (by decide), rfl⟩
  obtain ⟨item, -, -, hBare, hHead, -⟩ := read?_item hRead
  obtain ⟨hMark, -, -, hRemark⟩ := hBare.mp hIdentifier
  have hOpening : (Head.each loop).opening = "for r#type in (xs) \x7b" := by decide
  have hRest : "(xs) \x7b".toList = '(' :: (loop.collection.toList ++ [')', ' ', '\x7b']) := by
    decide
  rw [hOpening] at hHead
  refine ⟨hRead, hIdentifier, item.token, fun rest all => ?_⟩
  rw [hRest]
  exact hHead hMark hRemark rest all

/-- **A comment in place of white space**: it is taken for a part of the item, and in the
head of the loop it swallows the word and everything behind it. -/
theorem read?_item_swallows :
    let loop : Loop := ⟨"x//c", "xs"⟩
    Loop.read? "x//c of xs" = some loop ∧ ¬ IsIdentifier loop.item.toList ∧
      ∀ rest all, Cuts ("for x//c in (xs) \x7b\n".toList ++ rest) all ↔
        ∃ more, Cuts rest more ∧ all = [.token (.word "for"), .token (.word "x")] ++ more := by
  intro loop
  have hWord : IsWord "x".toList := by decide
  have hName : WordText (.word "x") "x".toList := by simpa using WordText.word hWord
  let item : ItemText := ⟨[], [], "x".toList, [], ['/', '/', 'c'], .word "x", .inl rfl, hName, rfl,
    .here _, .here _, .inr ⟨⟨['c'], rfl, by decide⟩, rfl⟩⟩
  have hChars : item.chars = loop.item.toList := by
    show "x".toList ++ ['/', '/', 'c'] = "x//c".toList
    decide
  have hLine : '\n' ∉ "in (xs) \x7b".toList := by decide
  refine ⟨by decide +kernel, ?_, fun rest all => ?_⟩
  · rw [← hChars, item.isIdentifier_iff]
    rintro ⟨-, -, -, hRemark⟩
    cases hRemark
  · exact item.cuts_remark_iff rfl (List.cons_ne_nil _ _) hLine rest all

end LiveMarkup.Template
