import LiveMarkup.Build.Script
import LiveMarkup.Proofs.Build.Effects
import LiveMarkup.Proofs.Markup.Equality
import LiveMarkup.Proofs.Template.Remarks

/-!
# What a build script announces

A build script is read by lines: one tells the outer build which file it depends on,
and each of the others is a warning. Whatever does not begin like one of these may be
taken for another instruction.

What is announced comes from the document, and most of it cannot hold a line feed:
the names of elements and attributes, the numbers of lines, what the grammar
expected. The value of a loop that was dropped can, and so can a reference that
stands for no character. These two are quoted as they are, so a line feed in them
ends the warning, and what is behind it is a line that announces nothing.

## Main results

* `announces_received_iff` — an outcome is announced if its warnings are lines.
* `buildScript_announces_iff` — **an outcome is announced exactly if no dropped loop
  and no unknown reference that it quotes holds a line feed**.
* `buildScript_breaks` — a document with such a loop.
-/

namespace LiveMarkup.Build

open Disk (Path Volume)
open Markup (Document IsName)
open Template (CompileError Options View malformedLoop?)
open Text (IsLine isLine_append linesOf printed)

/-! ## Announcements -/

/-- The lines that the outer build finds in what a build script prints. -/
def ScriptRun.received (script : ScriptRun) : List String :=
  linesOf (printed script.lines)

/-- The number of things there are to warn of. -/
def Outcome.remarkCount : Outcome → Nat
  | generated _ diagnostics => diagnostics.length
  | skipped _ => 1

/-- The lines tell on which file the outcome depends, and give a warning for everything
there is to warn of. -/
def Announces (input : Path) (outcome : Outcome) (lines : List String) : Prop :=
  ∃ warnings, lines = ("cargo:rerun-if-changed=" ++ input.shown) :: warnings ∧
    warnings.length = outcome.remarkCount ∧
    ∀ warning ∈ warnings, "cargo:warning=".toList <+: warning.toList

/-- A path stands on a line where no byte of it is a line feed. -/
theorem isLine_shown_iff (path : Path) : IsLine path.shown ↔ 0x0a ∉ path.bytes := by
  rw [IsLine, Path.shown, String.toList_ofList, Text.lineFeed_mem_shown_iff]

theorem length_warnings (input : Path) (outcome : Outcome) :
    (outcome.warnings input).length = outcome.remarkCount := by
  cases outcome with
  | generated path diagnostics => exact List.length_map _
  | skipped reason => rfl

theorem begins_of_mem_warnings {input : Path} {warning : String} {outcome : Outcome}
    (h : warning ∈ outcome.warnings input) : "cargo:warning=".toList <+: warning.toList := by
  cases outcome with
  | generated path diagnostics =>
      obtain ⟨d, -, rfl⟩ := List.mem_map.mp h
      simp only [String.toList_append, List.append_assoc]
      exact List.prefix_append _ _
  | skipped reason =>
      obtain rfl := List.mem_singleton.mp h
      have hSkipped : "cargo:warning=".toList <+: "cargo:warning=skipped ".toList := by decide
      simp only [String.toList_append, List.append_assoc]
      exact hSkipped.trans (List.prefix_append _ _)

/-- **An outcome is announced if its warnings are lines**, and only then: a warning with
a line feed is found as more than one line. -/
theorem announces_received_iff {input : Path} (hInput : IsLine input.shown)
    (outcome : Outcome) :
    Announces input outcome (linesOf (printed
        (("cargo:rerun-if-changed=" ++ input.shown) :: outcome.warnings input))) ↔
      ∀ warning ∈ outcome.warnings input, IsLine warning := by
  constructor
  · rintro ⟨warnings, hLines, hLength, -⟩ warning hMem
    have hCount : (linesOf (printed (("cargo:rerun-if-changed=" ++ input.shown) ::
        outcome.warnings input))).length =
        (("cargo:rerun-if-changed=" ++ input.shown) :: outcome.warnings input).length := by
      rw [hLines, List.length_cons, List.length_cons, hLength, length_warnings]
    exact Text.isLine_of_length_linesOf hCount warning (List.mem_cons_of_mem _ hMem)
  · intro h
    have hAll : ∀ line ∈ ("cargo:rerun-if-changed=" ++ input.shown) :: outcome.warnings input,
        IsLine line := by
      intro line hMem
      rcases List.mem_cons.mp hMem with rfl | hMem
      · exact isLine_append.mpr ⟨by simp [IsLine], hInput⟩
      · exact h line hMem
    rw [Text.linesOf_printed hAll]
    exact ⟨_, rfl, length_warnings input outcome, fun _ hMem => begins_of_mem_warnings hMem⟩

theorem isLine_warnings_generated {input : Path} (hInput : IsLine input.shown) (path : Path)
    (diagnostics : List Template.Diagnostic) :
    (∀ warning ∈ (Outcome.generated path diagnostics).warnings input, IsLine warning) ↔
      ∀ d ∈ diagnostics, IsLine d.text := by
  have hWarning : ∀ d : Template.Diagnostic,
      IsLine ("cargo:warning=" ++ input.shown ++ ": " ++ d.text) ↔ IsLine d.text := by
    intro d
    simp only [isLine_append, hInput]
    simp [IsLine]
  simp only [Outcome.warnings, List.forall_mem_map, hWarning]

theorem isLine_warnings_skipped {input : Path} (hInput : IsLine input.shown)
    (reason : CompileError) :
    (∀ warning ∈ (Outcome.skipped reason).warnings input, IsLine warning) ↔
      IsLine reason.message := by
  simp only [Outcome.warnings, List.forall_mem_singleton, isLine_append, hInput]
  simp [IsLine]

/-! ## What outcomes are about -/

variable {options : Options} {input : Path} {host : String} {volume : Volume}

/-- The document is what the file at a path of a volume holds. -/
def Holds (volume : Volume) (input : Path) (document : Document) : Prop :=
  ∃ bytes text, volume.read input = .ok bytes ∧ Text.decode bytes = .ok text ∧
    Document.read (String.ofList text) = .ok document

theorem Holds.unique {document other : Document} (h : Holds volume input document)
    (h' : Holds volume input other) : document = other := by
  obtain ⟨bytes, text, hBytes, hText, hRead⟩ := h
  obtain ⟨_, _, hBytes', hText', hRead'⟩ := h'
  obtain rfl := Except.ok.inj (hBytes.symm.trans hBytes')
  obtain rfl := Except.ok.inj (hText.symm.trans hText')
  exact Except.ok.inj (hRead.symm.trans hRead')

/-- What the warnings on an outcome quote from the file stands on lines: the values of
dropped loops, and the reference that stands for no character. -/
def QuotesLines (volume : Volume) (input : Path) : Outcome → Prop
  | .generated _ _ =>
    ∃ document, Holds volume input document ∧ ∀ tag ∈ document.tags, ∀ loop,
      malformedLoop? tag = some loop → IsLine loop.attrib.value
  | .skipped reason => ∀ position written,
      reason = .malformedMarkup position (.unknownReference written) → IsLine written

/-- There is code for a file that holds a document with a plan. -/
theorem exists_document_of_compiled {view : View}
    (h : (compiled options input host volume).result = .ok view) :
    ∃ document plan, Holds volume input document ∧
      Template.Plan.ofDocument options document = .ok plan ∧
      view.diagnostics = plan.documentDiagnostics := by
  obtain ⟨bytes, hRead⟩ := exists_read_of_compiled h
  rw [compiled, hRead, Template.contentCompilation] at h
  cases hText : Text.decode bytes with
  | error valid =>
      rw [hText] at h
      cases h
  | ok text =>
      rw [hText] at h
      obtain ⟨identifier, document, plan, -, hDocument, hPlan, rfl⟩ :=
        Template.exists_read_of_compilation h
      exact ⟨document, plan, ⟨bytes, text, hRead, hText, hDocument⟩, hPlan, rfl⟩

/-- The path that an error tells is that of the file, and the names are names of the
grammar. -/
theorem quotes_of_compiled {e : CompileError}
    (h : (compiled options input host volume).result = .error e) :
    (∀ path, e = .templateNotFound path → path = input) ∧
      ∀ position fault, e = .malformedMarkup position fault →
        ∀ name ∈ fault.names, IsName name.toList := by
  unfold compiled at h
  cases hRead : volume.read input with
  | error cause =>
      rw [hRead] at h
      cases cause <;> cases h <;> simp
  | ok bytes =>
      rw [hRead, Template.contentCompilation] at h
      cases hText : Text.decode bytes with
      | error valid =>
          rw [hText] at h
          cases h
          simp [Markup.Fault.names]
      | ok text =>
          rw [hText] at h
          rcases Template.error_of_compilation h with rfl | ⟨fault, hFault, rfl⟩ | ⟨fault, rfl⟩
          · simp
          · have hNamed := Markup.Document.read_named (String.ofList text)
            rw [hFault] at hNamed
            cases fault with
            | noRootElement => simp [CompileError.ofReadError]
            | malformed position fault =>
                constructor
                · intro _ hEq
                  cases hEq
                · intro _ other hEq
                  obtain rfl := (CompileError.malformedMarkup.inj hEq).2
                  exact hNamed
          · cases fault <;> simp [CompileError.ofDirectiveError]

/-- A build that wrote code is about the document in the file. -/
theorem document_of_generated {directory : Option Path} {path : Path}
    {diagnostics : List Template.Diagnostic}
    (h : ((build options input host directory : StateM Volume _).run volume).1.result =
      .ok (.generated path diagnostics)) :
    ∃ document plan, Holds volume input document ∧
      Template.Plan.ofDocument options document = .ok plan ∧
      diagnostics = plan.documentDiagnostics := by
  have hEffect := effect_build options input host directory volume
  rw [h] at hEffect
  cases hEffect with
  | compiled hView hDelivery =>
      cases hDelivery with
      | delivered => exact exists_document_of_compiled hView

/-- A build that was passed over met an error that builds pass over. -/
theorem reason_of_skipped {directory : Option Path} {reason : CompileError}
    (h : ((build options input host directory : StateM Volume _).run volume).1.result =
      .ok (.skipped reason)) :
    (compiled options input host volume).result = .error reason ∧ reason.isSkippable = true := by
  have hEffect := effect_build options input host directory volume
  rw [h] at hEffect
  generalize ((build options input host directory : StateM Volume _).run volume).2 = after
    at hEffect
  cases hEffect with
  | skipped hError hSkippable => exact ⟨hError, hSkippable⟩
  | compiled hView hDelivery => cases hDelivery

/-! ## Build scripts -/

/-- What a build script prints on a volume, and what it comes to. -/
def scriptOn (options : Options) (input : Path) (host : String) (directory : Path)
    (volume : Volume) : ScriptRun :=
  ((buildScript options input host (some directory) : StateM Volume _).run volume).1

theorem run_scriptOn (options : Options) (input : Path) (host : String) (directory : Path)
    (volume : Volume) :
    (scriptOn options input host directory volume).run =
      ((build options input host (some directory) : StateM Volume _).run volume).1 := rfl

/-- What is printed if there is an outcome. -/
theorem lines_scriptOn {directory : Path} {outcome : Outcome}
    (h : (scriptOn options input host directory volume).run.result = .ok outcome) :
    (scriptOn options input host directory volume).lines =
      ("cargo:rerun-if-changed=" ++ input.shown) :: outcome.warnings input := by
  rw [run_scriptOn] at h
  unfold scriptOn buildScript
  rw [Volume.run_bind]
  simp only [h]
  rfl

/-- The outcome for a file with the name `view.xml` whose code goes into a new directory. -/
theorem result_of_read {source : String} {document : Document}
    {diagnostics : List Template.Diagnostic}
    (hText : Text.decode source.toUTF8 = .ok source.toList)
    (hRead : Document.read source = .ok document)
    (hRemarks : (Template.Plan.ofDocument Options.standard document).toOption.map
      (·.documentDiagnostics) = some diagnostics) :
    (scriptOn Options.standard "view.xml" "Host" "out"
      (Volume.ofFile (Text.bytes "view.xml") source.toUTF8)).run.result =
        .ok (.generated "out/view.rs" diagnostics) := by
  obtain ⟨plan, hPlan, rfl⟩ := Template.exists_ok_of_map hRemarks
  have hHost : Code.typeName? "Host" = some "Host" := by decide +kernel
  have hView : (compiled Options.standard "view.xml" "Host"
      (Volume.ofFile (Text.bytes "view.xml") source.toUTF8)).result =
        .ok (Template.viewOf Options.standard (some "view.xml") "Host" "Host" document plan) := by
    have hBytes : (Volume.ofFile (Text.bytes "view.xml") source.toUTF8).read "view.xml" =
        .ok source.toUTF8 := by with_unfolding_all rfl
    have hName : (Path.ofText "view.xml").fileName?.bind Text.text? = some "view.xml" := by
      decide +kernel
    rw [compiled, hBytes, Template.contentCompilation, hText]
    simp only [hName, String.ofList_toList]
    rw [Template.compilation_of_read _ _ hHost hRead, hPlan]
  have hWrite : ∀ (view : View) (content : ByteArray),
      ((writeView "view.xml" "out" view : StateM Volume _).run
        (Volume.ofFile (Text.bytes "view.xml") content)).1.result =
          .ok (.generated "out/view.rs" view.diagnostics) := by
    intro view content
    with_unfolding_all rfl
  obtain ⟨records, hBuild⟩ := run_build_of_ok hView (some "out")
  rw [run_scriptOn, hBuild]
  exact hWrite _ source.toUTF8

/-- **An outcome is announced exactly if what is quoted from the file stands on lines**,
where the path of the file has no line feed. -/
theorem buildScript_announces_iff {options : Options} {input : Path} {host : String}
    {directory : Path} {volume : Volume} {outcome : Outcome} (hPath : 0x0a ∉ input.bytes)
    (h : (scriptOn options input host directory volume).run.result = .ok outcome) :
    Announces input outcome (scriptOn options input host directory volume).received ↔
      QuotesLines volume input outcome := by
  have hInput : IsLine input.shown := (isLine_shown_iff input).mpr hPath
  rw [ScriptRun.received, lines_scriptOn h, announces_received_iff hInput]
  rw [run_scriptOn] at h
  cases outcome with
  | generated path diagnostics =>
      obtain ⟨document, plan, hHolds, hPlan, rfl⟩ := document_of_generated h
      have hNamed : ∀ tag ∈ document.tags, tag.Named := by
        obtain ⟨bytes, text, -, -, hRead⟩ := hHolds
        have hNames := Markup.Document.read_named (String.ofList text)
        rw [hRead] at hNames
        exact hNames
      rw [isLine_warnings_generated hInput,
        Template.isLine_documentDiagnostics_iff hPlan hNamed]
      constructor
      · exact fun hLoops => ⟨document, hHolds, hLoops⟩
      · rintro ⟨other, hOther, hLoops⟩
        rw [hHolds.unique hOther]
        exact hLoops
  | skipped reason =>
      obtain ⟨hResult, hSkippable⟩ := reason_of_skipped h
      obtain ⟨hQuoted, hNames⟩ := quotes_of_compiled hResult
      rw [isLine_warnings_skipped hInput]
      apply Template.isLine_message_iff hSkippable _ hNames
      intro path hEq
      rw [hQuoted path hEq]
      exact hInput

/-- A loop that is dropped and remarked on one line. -/
theorem buildScript_announces_row :
    let source := "<row _foreach='x'/>"
    let script := scriptOn Options.standard "view.xml" "Host" "out"
      (Volume.ofFile (Text.bytes "view.xml") source.toUTF8)
    ∃ outcome, script.run.result = .ok outcome ∧ outcome.remarkCount = 1 ∧
      Announces "view.xml" outcome script.received := by
  let document : Document := ⟨[], ⟨"row", [⟨"_foreach", "x"⟩], 1⟩, []⟩
  have hRead : Document.read "<row _foreach='x'/>" =
      .ok ⟨[], ⟨"row", [⟨"_foreach", "x"⟩], 1⟩, []⟩ :=
    Template.eq_ok_of_toOption (by decide +kernel)
  intro source script
  have hText : Text.decode source.toUTF8 = .ok source.toList :=
    Template.eq_ok_of_toOption (by decide +kernel)
  have hRemarks : (Template.Plan.ofDocument Options.standard document).toOption.map
      (·.documentDiagnostics) = some [⟨1, "_foreach=\"x\" on <row> is not "
        ++ "`<item> of|in <collection>`; directive ignored"⟩] := by
    rw [Template.Plan.ofDocument, show document.content = [] from rfl, Template.Plan.ofNodes]
    decide +kernel
  have hResult : script.run.result = _ := result_of_read hText hRead hRemarks
  have hLoops : ∀ tag ∈ document.tags, (malformedLoop? tag).all
      (fun loop => decide (IsLine loop.attrib.value)) = true := by decide +kernel
  have hPath : 0x0a ∉ (Path.ofText "view.xml").bytes := by decide +kernel
  refine ⟨_, hResult, rfl, (buildScript_announces_iff hPath hResult).mpr ?_⟩
  refine ⟨document, ⟨_, _, by with_unfolding_all rfl, hText, ?_⟩, ?_⟩
  · rw [String.ofList_toList]
    exact hRead
  · intro tag hTag loop hLoop
    have hThis := hLoops tag hTag
    rw [hLoop] at hThis
    exact of_decide_eq_true hThis

/-- A loop that is dropped and holds a line feed: what is behind the line feed is a line
of its own, and no warning. -/
theorem buildScript_breaks :
    let source := "<row _foreach='x&#10;cargo:rustc-cfg=y'/>"
    let script := scriptOn Options.standard "view.xml" "Host" "out"
      (Volume.ofFile (Text.bytes "view.xml") source.toUTF8)
    ∃ outcome, script.run.result = .ok outcome ∧ 0x0a ∉ (Path.ofText "view.xml").bytes ∧
      script.received = ["cargo:rerun-if-changed=view.xml",
        "cargo:warning=view.xml: line 1: _foreach=\"x",
        "cargo:rustc-cfg=y\" on <row> is not `<item> of|in <collection>`; directive ignored"] ∧
      ¬ Announces "view.xml" outcome script.received := by
  let document : Document := ⟨[], ⟨"row", [⟨"_foreach", "x\ncargo:rustc-cfg=y"⟩], 1⟩, []⟩
  have hRead : Document.read "<row _foreach='x&#10;cargo:rustc-cfg=y'/>" =
      .ok ⟨[], ⟨"row", [⟨"_foreach", "x\ncargo:rustc-cfg=y"⟩], 1⟩, []⟩ :=
    Template.eq_ok_of_toOption (by decide +kernel)
  intro source script
  have hText : Text.decode source.toUTF8 = .ok source.toList :=
    Template.eq_ok_of_toOption (by decide +kernel)
  have hRemarks : (Template.Plan.ofDocument Options.standard document).toOption.map
      (·.documentDiagnostics) = some [⟨1, "_foreach=\"x\ncargo:rustc-cfg=y\" on <row> is not "
        ++ "`<item> of|in <collection>`; directive ignored"⟩] := by
    rw [Template.Plan.ofDocument, show document.content = [] from rfl, Template.Plan.ofNodes]
    decide +kernel
  have hResult : script.run.result = _ := result_of_read hText hRead hRemarks
  have hReceived : script.received = ["cargo:rerun-if-changed=view.xml",
      "cargo:warning=view.xml: line 1: _foreach=\"x",
      "cargo:rustc-cfg=y\" on <row> is not `<item> of|in <collection>`; directive ignored"] := by
    rw [ScriptRun.received, lines_scriptOn hResult]
    decide +kernel
  refine ⟨_, hResult, by decide +kernel, hReceived, ?_⟩
  rw [hReceived]
  rintro ⟨warnings, hLines, -, hBegin⟩
  rw [← (List.cons.inj hLines).2] at hBegin
  exact absurd (hBegin _ (List.mem_cons_of_mem _ List.mem_cons_self)) (by decide +kernel)

end LiveMarkup.Build
