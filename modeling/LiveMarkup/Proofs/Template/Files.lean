import LiveMarkup.Proofs.Disk.Volume
import LiveMarkup.Proofs.Markup.Located
import LiveMarkup.Proofs.Template.ModuleNames
import LiveMarkup.Proofs.Text.Lines
import LiveMarkup.Proofs.Text.Utf8
import LiveMarkup.Template.File
import Mathlib.Data.List.DropRight

/-!
# Files

A file is compiled like its text, and what comes of it differs from what comes of the
text in one thing: the line on top, which names the file. The name, if it is a text, is
copied into the line, and so a line feed in it ends the line.

A file whose bytes are no text is malformed where the bytes cease to be one. The place
is counted in the bytes of the file, so a byte-order mark is a character in front of
it, while a text loses its mark before anything is told of it.

## Main definitions

* `behindFirstLine` — a text without its first line.

## Main results

* `column_advance` — columns count the characters behind the last line feed.
* `fileCompilation_undecodable` — **where bytes cease to be a text**, and when this is
  told as other faults are.
* `fileCompilation_marked` — a mark is counted as a column.
* `fileCompilation_eq_compile` — **a file is compiled like its text, but for the first
  line**, exactly if the name of the file has no line feed.
* `fileCompilation_broken` — a name with a line feed puts a line of its own in front of
  the code.
-/

namespace LiveMarkup.Template

open Disk (Path Volume)
open Markup (Document reportPosition dropByteOrderMark)
open Text (IsLine LongestText Position encoded text?)

/-! ## Columns -/

/-- The column behind a text is counted from its last line feed on, or from the column
in front of it if there is none. -/
theorem column_advance (p : Position) (text : List Char) :
    (p.advance text).column =
      if '\n' ∈ text then 1 + (text.rtakeWhile (· != '\n')).length else p.column + text.length := by
  induction text using List.reverseRecOn with
  | nil => rfl
  | append_singleton text c ih =>
      rw [Position.advance_append, Position.advance_cons, Position.advance_nil, Position.after,
        List.rtakeWhile_concat]
      by_cases hFeed : c = '\n'
      · rw [if_pos hFeed, if_pos (List.mem_append_right text (hFeed ▸ List.mem_singleton_self c)),
          if_neg (by rw [hFeed]; decide)]
        rfl
      · have hMem : '\n' ∈ text ++ [c] ↔ '\n' ∈ text := by
          rw [List.mem_append, List.mem_singleton]
          exact or_iff_left fun hEq => hFeed hEq.symm
        rw [if_neg hFeed, if_pos (bne_iff_ne.mpr hFeed), ih]
        simp only [hMem, List.length_append, List.length_singleton]
        split <;> omega

/-- Whether a mark in front is counted makes a difference on the first line only. -/
theorem column_reportPosition_iff (front : List Char) :
    (Position.start.advance front).column = (reportPosition front).column ↔
      front.head? ≠ some '\ufeff' ∨ '\n' ∈ front := by
  rw [reportPosition]
  cases front with
  | nil => exact ⟨fun _ => .inl (Option.some_ne_none _).symm, fun _ => rfl⟩
  | cons c rest =>
      rw [dropByteOrderMark]
      split
      · rename_i hMark
        subst hMark
        have hMem : '\n' ∈ '\ufeff' :: rest ↔ '\n' ∈ rest := by
          rw [List.mem_cons]
          exact or_iff_right (by decide)
        rw [Position.advance_cons, column_advance, column_advance, hMem]
        by_cases hFeed : '\n' ∈ rest
        · rw [if_pos hFeed, if_pos hFeed]
          exact ⟨fun _ => .inr hFeed, fun _ => rfl⟩
        · rw [if_neg hFeed, if_neg hFeed]
          constructor
          · intro hColumn
            exact absurd (Nat.add_right_cancel hColumn) (by decide)
          · rintro (hNot | hThere)
            · exact absurd rfl hNot
            · exact absurd hThere hFeed
      · rename_i hMark
        exact ⟨fun _ => .inl fun hEq => hMark (Option.some.inj hEq), fun _ => rfl⟩

theorem line_reportPosition (front : List Char) :
    (reportPosition front).line = (Position.start.advance front).line := by
  rw [reportPosition, Position.line_advance, Position.line_advance]
  cases front with
  | nil => rfl
  | cons c rest =>
      rw [dropByteOrderMark]
      split
      · rename_i hMark
        rw [List.count_cons_of_ne (by rw [hMark]; decide)]
      · rfl

/-! ## Bytes that are no text -/

/-- Files are read once, and only the answer matters. -/
theorem run_fileCompilation (options : Options) (path : Path) (host : String)
    (volume : Volume) :
    (fileCompilation options path host : StateM Volume _).run volume =
      (contentCompilation options path host (volume.read path), volume) := rfl

/--
**Where bytes cease to be a text.** A file whose bytes are not UTF-8 is malformed behind
the longest text that they begin with, whatever the host and the options are. Its line
and its column are those of the place behind this text. Whatever is told of a source is
told for the place behind some front of it, on the same line, and in the same column
unless the front is on the first line and begins with a byte-order mark.
-/
theorem fileCompilation_undecodable (options : Options) (path : Path) (host : String)
    {volume : Volume} {bytes : ByteArray} (hRead : volume.read path = .ok bytes)
    (hBytes : ¬ bytes.IsValidUTF8) :
    ∃ valid, LongestText bytes.data.toList valid ∧
      (fileCompilation options path host : StateM Volume _).run volume =
        (⟨.error (.malformedMarkup (Position.start.advance valid) .invalidUtf8), []⟩, volume) ∧
      (Position.start.advance valid).line = 1 + valid.count '\n' ∧
      (Position.start.advance valid).column = 1 + (valid.rtakeWhile (· != '\n')).length ∧
      (∀ source position fault,
        Document.read source = .error (.malformed position fault) →
        ∃ front, front <+: source.toList ∧ position = reportPosition front) ∧
      (reportPosition valid).line = (Position.start.advance valid).line ∧
      ((reportPosition valid).column = (Position.start.advance valid).column ↔
        valid.head? ≠ some '\ufeff' ∨ '\n' ∈ valid) := by
  cases hDecode : Text.decode bytes with
  | ok text => exact absurd ⟨text, Text.decode_eq_ok_iff.mp hDecode⟩ hBytes
  | error valid =>
      refine ⟨valid, (Text.decode_eq_error_iff.mp hDecode).2, ?_, ?_, ?_, ?_, ?_, ?_⟩
      · rw [run_fileCompilation, hRead, contentCompilation, hDecode]
      · exact Position.line_advance _ _
      · rw [column_advance]
        split
        · rfl
        · rename_i hFeed
          have hAll : valid.rtakeWhile (· != '\n') = valid := List.rtakeWhile_eq_self_iff.mpr
            fun c hMem => bne_iff_ne.mpr fun hEq => hFeed (hEq ▸ hMem)
          rw [hAll]
          rfl
      · exact fun _ _ _ => Document.exists_front_of_malformed
      · exact line_reportPosition valid
      · rw [eq_comm]
        exact column_reportPosition_iff valid

/-- A character of two bytes, a line feed and a sequence that is cut off. -/
theorem fileCompilation_undecodable_truncated :
    let volume := Volume.ofFile (Text.bytes "v.xml") ⟨#[0xc3, 0xa9, 0x0a, 0x61, 0xf0, 0x9f]⟩
    ((fileCompilation .standard "v.xml" "Host" : StateM Volume _).run volume).1.result =
      .error (.malformedMarkup ⟨3, 2, 2⟩ .invalidUtf8) := by
  intro volume
  have hDecode : Text.decode ⟨#[0xc3, 0xa9, 0x0a, 0x61, 0xf0, 0x9f]⟩ =
      .error ['é', '\n', 'a'] := by decide +kernel
  obtain ⟨hBytes, hLongest⟩ := Text.decode_eq_error_iff.mp hDecode
  have hRead : volume.read "v.xml" = .ok ⟨#[0xc3, 0xa9, 0x0a, 0x61, 0xf0, 0x9f]⟩ := by
    with_unfolding_all rfl
  obtain ⟨valid, hValid, hRun, -⟩ :=
    fileCompilation_undecodable .standard "v.xml" "Host" hRead hBytes
  rw [hRun, hValid.unique hLongest]
  rfl

/-- A mark in front of the first byte that is none is counted as a column, and is not
where a source is malformed behind its mark. -/
theorem fileCompilation_marked :
    let volume := Volume.ofFile (Text.bytes "v.xml") ⟨#[0xef, 0xbb, 0xbf, 0xff]⟩
    LongestText [0xef, 0xbb, 0xbf, 0xff] ['\ufeff'] ∧
      reportPosition ['\ufeff'] = ⟨0, 1, 1⟩ ∧
      (∃ fault, Document.read "\ufeffx" = .error (.malformed ⟨0, 1, 1⟩ fault)) ∧
      ((fileCompilation .standard "v.xml" "Host" : StateM Volume _).run volume).1.result =
        .error (.malformedMarkup ⟨1, 1, 2⟩ .invalidUtf8) := by
  intro volume
  have hDecode : Text.decode ⟨#[0xef, 0xbb, 0xbf, 0xff]⟩ = .error ['\ufeff'] := by decide +kernel
  have hRead : volume.read "v.xml" = .ok ⟨#[0xef, 0xbb, 0xbf, 0xff]⟩ := by with_unfolding_all rfl
  have hPlace : Document.read "\ufeffx" =
      .error (.malformed ⟨0, 1, 1⟩ (.unexpected [.document])) := by decide +kernel
  refine ⟨(Text.decode_eq_error_iff.mp hDecode).2, rfl, ⟨_, hPlace⟩, ?_⟩
  rw [run_fileCompilation, hRead, contentCompilation, hDecode]
  rfl

/-! ## The line on top -/

/-- The first line of a text, without the line feed that ends it. -/
def firstLine (s : String) : List Char :=
  s.toList.takeWhile (· != '\n')

/-- What stands behind the first line of a text. -/
def behindFirstLine (s : String) : List Char :=
  (s.toList.dropWhile (· != '\n')).drop 1

/-- A text is the first line of what begins with it and a line feed, if it is a line. -/
theorem behindFirstLine_eq_iff (line rest : String) :
    behindFirstLine (line ++ "\n" ++ rest) = rest.toList ↔ IsLine line := by
  have hText : (line ++ "\n" ++ rest).toList = line.toList ++ '\n' :: rest.toList := by
    simp only [String.toList_append, List.append_assoc]
    rfl
  have hDrop : ∀ {front : List Char}, '\n' ∉ front → ∀ back : List Char,
      ((front ++ '\n' :: back).dropWhile (· != '\n')).drop 1 = back := by
    intro front hFront back
    have hAll : ∀ c ∈ front, (c != '\n') = true :=
      fun c hMem => bne_iff_ne.mpr fun hEq => hFront (hEq ▸ hMem)
    rw [List.dropWhile_append_of_pos hAll]
    rfl
  rw [behindFirstLine, hText]
  refine ⟨fun h hFeed => ?_, fun hLine => hDrop hLine _⟩
  obtain ⟨front, back, hParts, hFront⟩ := List.eq_append_cons_of_mem hFeed
  rw [hParts, List.append_assoc, List.cons_append, hDrop hFront] at h
  have hLength := congrArg List.length h
  rw [List.length_append, List.length_cons] at hLength
  omega

/-- What is behind the line on top does not depend on where the markup comes from. -/
theorem exists_source_behind (options : Options) (host identifier : String) (document : Document)
    (plan : Plan) :
    ∃ rest, ∀ origin, (viewOf options origin host identifier document plan).source =
      (originLine origin).text ++ "\n" ++ rest := by
  let lines := moduleLines options none host (moduleName identifier) document plan
  refine ⟨renderLines lines.tail, fun origin => ?_⟩
  have hLine : (originLine origin).render = (originLine origin).text ++ "\n" := by
    cases origin <;> rfl
  rw [viewOf, ← hLine]
  show renderLines ([originLine origin] ++ lines.tail) = _
  rw [renderLines_append]
  simp [renderLines]

/-- Where the markup comes from does not matter to whether it compiles. -/
theorem compilation_origin (options : Options) (origin : Option String) (host source : String) :
    (∃ e, (compilation options origin host source).result = .error e ∧
      compile options host source = .error e) ∨
    ∃ identifier document plan,
      (compilation options origin host source).result =
        .ok (viewOf options origin host identifier document plan) ∧
      compile options host source = .ok (viewOf options none host identifier document plan) := by
  cases hHost : Code.typeName? host with
  | none =>
      rw [compile, compilation, compilation, hHost]
      exact .inl ⟨_, rfl, rfl⟩
  | some identifier =>
      cases hRead : Document.read source with
      | error e =>
          rw [compile, compilation, compilation, hHost]
          simp only [hRead]
          exact .inl ⟨_, rfl, rfl⟩
      | ok document =>
          rw [compilation_of_read options origin hHost hRead, compile_of_read options hHost hRead]
          cases Plan.ofDocument options document with
          | error e => exact .inl ⟨_, rfl, rfl⟩
          | ok plan => exact .inr ⟨identifier, document, plan, rfl, rfl⟩

/-- A file that holds a text is compiled like the text, and comes from a file whose name may
be a text too. -/
theorem exists_run_fileCompilation (options : Options) (path : Path) (host : String)
    {volume : Volume} {content : String} (h : volume.read path = .ok content.toUTF8) :
    ∃ name, path.fileName? = some name ∧
      (fileCompilation options path host : StateM Volume _).run volume =
        (compilation options (text? name) host content, volume) := by
  obtain ⟨name, hName⟩ := volume.grounded.exists_fileName (Volume.read_tree_of_read h)
  have hDecode : Text.decode content.toUTF8 = .ok content.toList :=
    Text.decode_eq_ok_iff.mpr String.utf8Encode_toList.symm
  refine ⟨name, hName, ?_⟩
  rw [run_fileCompilation, h, contentCompilation, hDecode, hName]
  simp only [String.ofList_toList, Option.bind_some]

/-- The line on top of the code for a file is one line, if the name of the file is, or is
no text and not told. -/
theorem isLine_originLine (origin : Option String) :
    IsLine (originLine origin).text ↔ ∀ name, origin = some name → IsLine name := by
  cases origin with
  | none => exact iff_of_true (by decide) nofun
  | some name =>
      have hFront : IsLine "// @generated by trellis from " := by decide
      have hBack : IsLine "; do not edit." := by decide
      rw [originLine, Text.isLine_append, Text.isLine_append]
      simp only [hFront, hBack, true_and, and_true, Option.some.injEq, forall_eq']

/-- The line on top is a comment. -/
theorem slashes_prefix_firstLine (origin : Option String) (rest : String) :
    ['/', '/'] <+: firstLine ((originLine origin).text ++ "\n" ++ rest) := by
  obtain ⟨tail, hTail⟩ : ∃ tail, (originLine origin).text.toList = '/' :: '/' :: tail := by
    cases origin with
    | none => exact ⟨_, rfl⟩
    | some name =>
        rw [originLine, String.toList_append, String.toList_append]
        exact ⟨_, rfl⟩
  rw [firstLine, String.toList_append, String.toList_append, hTail]
  exact ⟨_, rfl⟩

/--
**A file is compiled like its text, but for the first line.** A file that holds a text
does not compile exactly if the text does not, and for the same reason. Otherwise the
modules have the same name, the same is remarked, and both sources begin with a comment.
What stands behind the first lines is the same exactly if the name of the file has no
line feed, or is no text and so not told.
-/
theorem fileCompilation_eq_compile (options : Options) (path : Path) (host : String)
    {volume : Volume} {content : String} (h : volume.read path = .ok content.toUTF8) :
    ∃ name result, path.fileName? = some name ∧
      ((fileCompilation options path host : StateM Volume _).run volume).1.result = result ∧
      ((∃ e, result = .error e ∧ compile options host content = .error e) ∨
        ∃ fileView view, result = .ok fileView ∧ compile options host content = .ok view ∧
          fileView.moduleName = view.moduleName ∧ fileView.diagnostics = view.diagnostics ∧
          ['/', '/'] <+: firstLine fileView.source ∧ ['/', '/'] <+: firstLine view.source ∧
          (behindFirstLine fileView.source = behindFirstLine view.source ↔
            ∀ text, text? name = some text → IsLine text)) := by
  obtain ⟨name, hName, hRun⟩ := exists_run_fileCompilation options path host h
  refine ⟨name, _, hName, rfl, ?_⟩
  rw [hRun]
  rcases compilation_origin options (text? name) host content with
    hFails | ⟨identifier, document, plan, hFile, hText⟩
  · exact .inl hFails
  · obtain ⟨rest, hSource⟩ := exists_source_behind options host identifier document plan
    have hBehind : behindFirstLine ((originLine none).text ++ "\n" ++ rest) = rest.toList :=
      (behindFirstLine_eq_iff _ _).mpr (by decide)
    refine .inr ⟨_, _, hFile, hText, rfl, rfl, ?_, ?_, ?_⟩
    · rw [hSource]
      exact slashes_prefix_firstLine _ rest
    · rw [hSource]
      exact slashes_prefix_firstLine _ rest
    · rw [hSource, hSource, hBehind, behindFirstLine_eq_iff]
      exact isLine_originLine (text? name)

/-- An element in a file of its own. -/
theorem fileCompilation_eq_compile_element :
    let volume := Volume.ofFile (Text.bytes "view.xml") "<a/>".toUTF8
    ∃ fileView view,
      ((fileCompilation .standard "view.xml" "Host" : StateM Volume _).run volume).1.result =
        .ok fileView ∧
      compile .standard "Host" "<a/>" = .ok view ∧ fileView.moduleName = view.moduleName ∧
      behindFirstLine fileView.source = behindFirstLine view.source := by
  intro volume
  have hRead : volume.read "view.xml" = .ok "<a/>".toUTF8 := by with_unfolding_all rfl
  have hFile : (Path.ofText "view.xml").fileName? = some (Text.bytes "view.xml") := by
    decide +kernel
  have hHost : Code.typeName? "Host" = some "Host" := by decide +kernel
  obtain ⟨document, plan, hCompile⟩ := exists_compile_element hHost
  obtain ⟨name, _, hName, rfl, hFails | ⟨fileView, view, hRun, hView, hModule, -, -, -, hBehind⟩⟩ :=
    fileCompilation_eq_compile .standard "view.xml" "Host" hRead
  · obtain ⟨_, -, hError⟩ := hFails
    exact nomatch hCompile.symm.trans hError
  · obtain rfl := Option.some.inj (hFile.symm.trans hName)
    refine ⟨fileView, view, hRun, hView, hModule, hBehind.mpr fun text hText => ?_⟩
    rw [Text.text?_eq_some_iff.mpr rfl] at hText
    obtain rfl := Option.some.inj hText
    decide

/-- A line feed in the name of a file ends the comment, and the rest of the name stands
in front of the code. -/
theorem fileCompilation_broken :
    let volume := Volume.ofFile (Text.bytes "a\nb.xml") "<a/>".toUTF8
    ∃ fileView view,
      ((fileCompilation .standard "a\nb.xml" "Host" : StateM Volume _).run volume).1.result =
        .ok fileView ∧
      compile .standard "Host" "<a/>" = .ok view ∧
      behindFirstLine fileView.source = "b.xml; do not edit.\n".toList ++
        behindFirstLine view.source := by
  intro volume
  have hRead : volume.read "a\nb.xml" = .ok "<a/>".toUTF8 := by with_unfolding_all rfl
  have hFile : (Path.ofText "a\nb.xml").fileName? = some (Text.bytes "a\nb.xml") := by
    decide +kernel
  have hHost : Code.typeName? "Host" = some "Host" := by decide +kernel
  obtain ⟨document, plan, hCompile⟩ := exists_compile_element hHost
  obtain ⟨name, hName, hRun⟩ := exists_run_fileCompilation .standard "a\nb.xml" "Host" hRead
  obtain rfl := Option.some.inj (hFile.symm.trans hName)
  rw [hRun, Text.text?_eq_some_iff.mpr rfl]
  rcases compilation_origin .standard (some "a\nb.xml") "Host" "<a/>" with
    ⟨_, -, hError⟩ | ⟨identifier, document, plan, hFileView, hView⟩
  · exact nomatch hCompile.symm.trans hError
  · obtain ⟨rest, hSource⟩ := exists_source_behind .standard "Host" identifier document plan
    have hBehind : behindFirstLine ((originLine none).text ++ "\n" ++ rest) = rest.toList :=
      (behindFirstLine_eq_iff _ _).mpr (by decide)
    refine ⟨_, _, hFileView, hView, ?_⟩
    rw [hSource, hSource, hBehind, behindFirstLine, originLine, String.toList_append,
      String.toList_append]
    rfl

end LiveMarkup.Template
