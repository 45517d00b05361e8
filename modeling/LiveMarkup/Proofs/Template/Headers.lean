import LiveMarkup.Proofs.Code.Suffixes
import LiveMarkup.Proofs.Template.ModuleNames

/-!
# The header of the implementation

The host is looked at token by token, and copied into the header of its implementation as
it is written. Brackets in it are balanced, strings and block comments are ended, so what
stands behind it is read on its own: the curly bracket of the header is read, and nothing
else is opened.

Two sorts of hosts are an exception. A comment to the end of the line may stand at the end
of a host, since the end of the host ends it. In the header it goes on, and swallows the
bracket. And a byte-order mark in front of a host is no token in the middle of a text.

## Main definitions

* `headerLine` — the line of the header.
* `headerTokens` — the tokens in front of the host.
* `HostText` — a text whose tokens are known, with what may stand around them.

## Main results

* `exists_headerLine` — the header is a line of the code.
* `HostText.cuts_header_iff`, `HostText.cuts_remark_iff` — the header of a host with and
  without a comment at its end.
* `compile_header` — **the bracket of the header is read iff the host does not end in a
  comment to the end of the line**.
-/

namespace LiveMarkup.Template

open Code (Token Lexeme Bracket IsWord WordText Reads Cuts EndsInRemark Trailing Nests nest PathText
  PlainPath)

/-- The line of the header. -/
def headerLine (options : Options) (host : String) : Line :=
  ⟨1, "impl " ++ options.runtimePath ++ "::Rebuild for " ++ host ++ " \x7b"⟩

/-- The tokens in front of the host, for a runtime that is found under a path. -/
def headerTokens (path : List Token) : List Token :=
  .word "impl" :: (path ++ [.punct ':' true, .punct ':' false, .word "Rebuild", .word "for"])

/-! ## The line -/

/-- The header is a line of the code. -/
theorem exists_headerLine (options : Options) (host identifier : String)
    (document : Markup.Document) (plan : Plan) :
    ∃ front back, (viewOf options none host identifier document plan).source =
      renderLines front ++ (headerLine options host).render ++ renderLines back := by
  have hMem : headerLine options host ∈
      moduleLines options none host (moduleName identifier) document plan := by
    simp [moduleLines, headerLine]
  obtain ⟨front, back, hLines⟩ := List.append_of_mem hMem
  refine ⟨front, back, ?_⟩
  rw [viewOf, hLines, renderLines_append]
  simp [renderLines, String.append_assoc]

/-- The header as it is written. -/
theorem render_headerLine (options : Options) (host : String) :
    (headerLine options host).render.toList = ' ' :: ' ' :: ' ' :: ' ' :: ("impl".toList ++ ' ' ::
      (options.runtimePath.toList ++ (':' :: ':' :: ("Rebuild".toList ++ ' ' ::
        ("for".toList ++ ' ' :: (host.toList ++ [' ', '\x7b', '\n'])))))) := by
  have hIndent : (String.join (List.replicate 1 "    ")).toList = [' ', ' ', ' ', ' '] := by decide
  have hImpl : "impl ".toList = "impl".toList ++ [' '] := rfl
  have hRebuild : "::Rebuild for ".toList =
    ':' :: ':' :: ("Rebuild".toList ++ ' ' :: ("for".toList ++ [' '])) := rfl
  have hOpening : " \x7b".toList = [' ', '\x7b'] := rfl
  have hEnd : "\n".toList = ['\n'] := rfl
  simp only [Line.render, headerLine, String.toList_append, hIndent, hImpl, hRebuild, hOpening,
    hEnd, List.append_assoc, List.cons_append, List.nil_append]

/-- The header is read up to the host. -/
theorem reads_headerTokens {runtime : List Char} {path : List Token}
    (hRuntime : PlainPath runtime path) (s : List Char) :
    Reads (' ' :: ' ' :: ' ' :: ' ' :: ("impl".toList ++ ' ' :: (runtime ++ (':' :: ':' ::
      ("Rebuild".toList ++ ' ' :: ("for".toList ++ ' ' :: s))))))
      ((headerTokens path).map .token) s := by
  have hFor := Code.reads_known "for" (by decide) s
  have hRebuild := (Code.reads_known "Rebuild" (by decide) _).trans hFor
  have hJoint := (Code.reads_joint rfl).trans hRebuild
  have hPath := (hRuntime.reads (Code.endsWord_cons (by decide) (by decide) _)).trans hJoint
  have hImpl := (Code.reads_known "impl" (by decide) _).trans hPath
  have hIndent := (Code.reads_blank _).trans ((Code.reads_blank _).trans
    ((Code.reads_blank _).trans ((Code.reads_blank _).trans hImpl)))
  simpa [headerTokens] using hIndent

/-! ## The host -/

/-- A text whose tokens are known: a byte-order mark may stand in front of it, and a comment
to the end of the line behind it. -/
structure HostText where
  mark : List Char
  text : List Char
  remark : List Char
  front : List Lexeme
  last : List Lexeme
  tokens : List Token
  isMark : mark = [] ∨ mark = ['\ufeff']
  reads : Reads (text ++ remark) front remark
  trailing : Trailing remark last
  nests : Nests (front ++ last) tokens

namespace HostText

/-- A host as it is written. -/
def chars (host : HostText) : List Char :=
  host.mark ++ (host.text ++ host.remark)

/-- The lexemes of a host. -/
def lexemes (host : HostText) : List Lexeme :=
  host.front ++ host.last

/-- A host that no comment ends, wherever one might begin in it. -/
theorem remark_eq_nil (text : HostText) (h : ∀ tail ∈ text.chars.tails, ¬ EndsInRemark tail) :
    text.remark = [] := by
  have hMem : text.remark ∈ text.chars.tails := by
    rw [List.mem_tails, chars, ← List.append_assoc]
    exact List.suffix_append _ _
  have hTrailing := text.trailing
  generalize text.remark = rest at hMem hTrailing
  generalize text.last = last at hTrailing
  cases hTrailing with
  | nothing => rfl
  | remark hEnds _ => exact absurd hEnds (h rest hMem)
  | documentation hEnds _ _ => exact absurd hEnds (h rest hMem)

/-- Without a comment at its end all of a host is read. -/
theorem lexemes_eq (text : HostText) (hRemark : text.remark = []) : text.lexemes = text.front := by
  have hTrailing := text.trailing
  rw [hRemark] at hTrailing
  rw [lexemes, hTrailing.eq_nil, List.append_nil]

/-! ## Headers -/

variable {options : Options} {path : List Token} {host : String} (text : HostText)

/-- Without a byte-order mark in front of the host, a header is read up to the comment at the
end of the host. -/
theorem reads_header (hText : text.chars = host.toList)
    (hRuntime : PlainPath options.runtimePath.toList path) (hMark : text.mark = [])
    (rest : List Char) :
    Reads ((headerLine options host).render.toList ++ rest)
      ((headerTokens path).map .token ++ text.front)
      (text.remark ++ ' ' :: (['\x7b'] ++ '\n' :: rest)) := by
  have hHost := text.reads.space (['\x7b'] ++ '\n' :: rest)
  have hWhole := (reads_headerTokens hRuntime _).trans hHost
  rw [render_headerLine, ← hText, chars, hMark]
  simpa only [List.append_assoc, List.cons_append, List.nil_append] using hWhole

/-- **Without a comment at the end of the host, the bracket of the header is read.** -/
theorem cuts_header_iff (hText : text.chars = host.toList)
    (hRuntime : PlainPath options.runtimePath.toList path) (hMark : text.mark = [])
    (hRemark : text.remark = []) (rest : List Char) (all : List Lexeme) :
    Cuts ((headerLine options host).render.toList ++ rest) all ↔
      ∃ more, Cuts rest more ∧
        all = (headerTokens path).map .token ++ text.lexemes ++ .opening .curly :: more := by
  have hOpening : Reads ('\x7b' :: '\n' :: rest) [.opening .curly] ('\n' :: rest) := by
    refine .single rfl ?_
    rintro ⟨inside, hLine, -⟩
    cases hLine
  have hHeader := text.reads_header hText hRuntime hMark rest
  rw [hRemark] at hHeader
  have hWhole := hHeader.trans ((Code.reads_blank _).trans hOpening)
  rw [hWhole.cuts_iff, text.lexemes_eq hRemark]
  simp only [Code.cuts_feed_iff, List.append_assoc, List.nil_append, List.cons_append]

/-- **A comment at the end of the host swallows the bracket of the header.** -/
theorem cuts_remark_iff (hText : text.chars = host.toList)
    (hRuntime : PlainPath options.runtimePath.toList path) (hMark : text.mark = [])
    (hRemark : text.remark ≠ []) (rest : List Char) (all : List Lexeme) :
    Cuts ((headerLine options host).render.toList ++ rest) all ↔
      ∃ more, Cuts rest more ∧ all = (headerTokens path).map .token ++ text.lexemes ++ more := by
  rw [(text.reads_header hText hRuntime hMark rest).cuts_iff]
  have hBracket : '\n' ∉ ['\x7b'] := by decide
  simp only [text.trailing.cuts_iff hRemark hBracket (by decide)]
  constructor
  · rintro ⟨_, ⟨more, hMore, rfl⟩, rfl⟩
    exact ⟨more, hMore, by simp only [lexemes, List.append_assoc]⟩
  · rintro ⟨more, hMore, rfl⟩
    exact ⟨_, ⟨more, hMore, rfl⟩, by simp only [lexemes, List.append_assoc]⟩

/-- A byte-order mark in the middle of a text is not read. -/
theorem not_cuts_mark (hText : text.chars = host.toList)
    (hRuntime : PlainPath options.runtimePath.toList path) (hMark : text.mark ≠ [])
    (rest : List Char) (all : List Lexeme) :
    ¬ Cuts ((headerLine options host).render.toList ++ rest) all := by
  have hHeader := reads_headerTokens hRuntime (host.toList ++ [' ', '\x7b', '\n'] ++ rest)
  rw [render_headerLine]
  simp only [List.append_assoc, List.cons_append, List.nil_append] at hHeader ⊢
  rw [hHeader.cuts_iff, ← hText, chars, text.isMark.resolve_left hMark]
  rintro ⟨more, hMore, -⟩
  exact Code.not_cuts_mark _ more hMore

/-- The brackets of a host are closed in it: behind the header one bracket more is open than
in front of it. -/
theorem nest_header (opened : List (Bracket × List Token)) (before : List Token)
    (more : List Lexeme) :
    nest opened before ((headerTokens path).map .token ++ text.lexemes ++ .opening .curly :: more) =
      nest ((.curly, (headerTokens path ++ text.tokens).reverse ++ before) :: opened) [] more := by
  have hHost : Nests text.lexemes text.tokens := text.nests
  rw [((Code.nests_tokens _).append hHost).nest_append, nest]

end HostText

/-- A text that has tokens is one with what may stand around them. -/
theorem exists_hostText {s : String} {tokens : List Token} (h : Code.tokens? s = some tokens) :
    ∃ text : HostText, text.chars = s.toList ∧ text.tokens = tokens := by
  obtain ⟨mark, text, lexemes, hText, hMark, hCut, hNests⟩ := Code.exists_cuts_of_tokens? h
  obtain ⟨front, remark, last, hReads, hTrailing, rfl⟩ := Code.exists_reads hCut
  obtain ⟨text, rfl⟩ := hReads.suffix
  exact ⟨⟨mark, text, remark, front, last, tokens, hMark, hReads, hTrailing, hNests⟩, hText.symm,
    rfl⟩

/-! ## Views -/

/-- **The header of a view that is compiled**, for every host that is a type and whatever
markup. The host is a text whose brackets are closed in it. The header is cut into its own
words, the lexemes of the host and an opening bracket, whatever follows, and behind it just
this bracket is open, if neither a byte-order mark stands in front of the host nor a comment
at its end. The comment takes the bracket with it, and a header with the mark is not cut at
all. -/
theorem compile_header {options : Options} {host source : String} {view : View}
    {path : List Token} (hRuntime : PlainPath options.runtimePath.toList path)
    (hCompile : compile options host source = .ok view) :
    ∃ (text : HostText) (front back : List Line), text.chars = host.toList ∧
      Code.tokens? host = some text.tokens ∧
      view.source = renderLines front ++ (headerLine options host).render ++ renderLines back ∧
      (text.mark = [] → text.remark = [] → ∀ rest all,
        Cuts ((headerLine options host).render.toList ++ rest) all ↔
          ∃ more, Cuts rest more ∧
            all = (headerTokens path).map .token ++ text.lexemes ++ .opening .curly :: more) ∧
      (∀ opened before more, nest opened before
          ((headerTokens path).map .token ++ text.lexemes ++ .opening .curly :: more) =
        nest ((.curly, (headerTokens path ++ text.tokens).reverse ++ before) :: opened) [] more) ∧
      (text.mark = [] → text.remark ≠ [] → ∀ rest all,
        Cuts ((headerLine options host).render.toList ++ rest) all ↔
          ∃ more, Cuts rest more ∧
            all = (headerTokens path).map .token ++ text.lexemes ++ more) ∧
      (text.mark ≠ [] → ∀ rest all,
        ¬ Cuts ((headerLine options host).render.toList ++ rest) all) := by
  obtain ⟨identifier, document, plan, hHost, -, -, rfl⟩ := exists_read_of_compile hCompile
  obtain ⟨tokens, hTokens, -⟩ := Option.bind_eq_some_iff.mp hHost
  obtain ⟨text, hText, rfl⟩ := exists_hostText hTokens
  obtain ⟨front, back, hSource⟩ := exists_headerLine options host identifier document plan
  exact ⟨text, front, back, hText, hTokens, hSource, text.cuts_header_iff hText hRuntime,
    text.nest_header, text.cuts_remark_iff hText hRuntime, text.not_cuts_mark hText hRuntime⟩

/-- The tokens of the path under which the runtime is found. -/
def standardPath : List Token :=
  [.punct ':' true, .punct ':' false, .word "trellis_runtime"]

theorem plainPath_standard : PlainPath Options.standard.runtimePath.toList standardPath := by
  have hWord : IsWord "trellis_runtime".toList := by decide
  have hText : WordText (.word "trellis_runtime") "trellis_runtime".toList := by
    simpa using WordText.word hWord
  have hChars : Options.standard.runtimePath.toList = ':' :: ':' :: "trellis_runtime".toList := by
    decide
  rw [hChars]
  exact .rooted (.word hText)

/-- Comments of both kinds inside a host, with brackets that are open in them. -/
theorem compile_header_comments :
    let host := "Foo//\x7b\n</* (\x7d */'a, [u8; 2]>"
    ∃ view front back lexemes tokens, compile .standard host "<a/>" = .ok view ∧
      view.source = renderLines front ++ (headerLine .standard host).render ++ renderLines back ∧
      Code.tokens? host = some tokens ∧
      (∀ rest all, Cuts ((headerLine .standard host).render.toList ++ rest) all ↔
        ∃ more, Cuts rest more ∧
          all = (headerTokens standardPath).map .token ++ lexemes ++ .opening .curly :: more) ∧
      ∀ more, nest [] []
          ((headerTokens standardPath).map .token ++ lexemes ++ .opening .curly :: more) =
        nest [(.curly, (headerTokens standardPath ++ tokens).reverse)] [] more := by
  intro host
  have hHost : Code.typeName? host = some "Foo" := by decide +kernel
  obtain ⟨document, plan, hCompile⟩ := exists_compile_element hHost
  obtain ⟨text, front, back, hText, hTokens, hSource, hHeader, hNest, -⟩ :=
    compile_header plainPath_standard hCompile
  have hMark : text.mark = [] := by
    refine text.isMark.resolve_right fun hMark => ?_
    have hFirst : host.toList.head? = some '\ufeff' := by
      rw [← hText, HostText.chars, hMark]
      rfl
    exact absurd hFirst (by decide)
  have hRemark : text.remark = [] := by
    refine text.remark_eq_nil ?_
    rw [hText]
    decide +kernel
  refine ⟨_, front, back, text.lexemes, text.tokens, hCompile, hSource, hTokens,
    hHeader hMark hRemark, fun more => ?_⟩
  rw [hNest, List.append_nil]

/-- **A comment at the end of a host**: it is no part of the type, and in the header it swallows
the bracket. -/
theorem compile_header_swallows :
    let header := "    impl ::trellis_runtime::Rebuild for Foo//c \x7b\n"
    let words : List Token := headerTokens standardPath ++ [.word "Foo"]
    ∃ view front back, compile .standard "Foo//c" "<a/>" = .ok view ∧
      view.source = renderLines front ++ header ++ renderLines back ∧
      ∀ rest all, Cuts (header.toList ++ rest) all ↔
        ∃ more, Cuts rest more ∧ all = words.map .token ++ more := by
  intro header words
  have hHost : Code.typeName? "Foo//c" = some "Foo" := by decide +kernel
  obtain ⟨document, plan, hCompile⟩ := exists_compile_element hHost
  obtain ⟨front, back, hSource⟩ := exists_headerLine .standard "Foo//c" "Foo" document plan
  have hLine : (headerLine .standard "Foo//c").render = header := by decide
  have hWord : IsWord "Foo".toList := by decide
  have hName : WordText (.word "Foo") "Foo".toList := by simpa using WordText.word hWord
  have hEnds : Code.EndsWord ['/', '/', 'c'] := Code.endsWord_cons (by decide) (by decide) _
  let text : HostText := ⟨[], "Foo".toList, ['/', '/', 'c'], [.token (.word "Foo")], [],
    [.word "Foo"], .inl rfl, Code.reads_word hName hEnds, .remark (by decide) rfl, .token .nil⟩
  have hText : text.chars = "Foo//c".toList := by
    show "Foo".toList ++ ['/', '/', 'c'] = "Foo//c".toList
    decide
  refine ⟨_, front, back, hCompile, hLine ▸ hSource, fun rest all => ?_⟩
  have hHeader := text.cuts_remark_iff hText plainPath_standard rfl (List.cons_ne_nil _ _) rest all
  rw [hLine] at hHeader
  rw [hHeader, List.map_append]
  rfl

end LiveMarkup.Template
