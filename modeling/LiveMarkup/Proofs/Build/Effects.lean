import LiveMarkup.Build.Outcome
import LiveMarkup.Proofs.Template.Files

/-!
# What builds and checks do to a volume

A check and a build of one file read the same bytes and compile them in the same way,
and only then does the build write anything. So the check tells what the build comes
to, but for the directory and the file of the code, and nothing is written for a
document that cannot be compiled.

The code is written to what its path leads to. That is a file of its own unless
something stands in its place: a link leads to another path, which gets the code as
well, and a device keeps none of it. And the file is named after the document only if
the stem of the document is a text.

## Main results

* `delivery_writeView`, `effect_build` — all that can become of the code of a view, and
  all that a build can do.
* `build_agrees_with_check` — **a build comes to what the check says**, or the request
  that failed is told.
* `build_delivers` — a build that delivers its file.
* `build_elsewhere` — code for a document whose name is no text, code for the empty
  directory, and code that a device takes.
* `build_changes_only_its_output` — **a build changes nothing but the file of the code
  and the missing directories on its way**, and a build without code changes nothing.
* `build_through_link` — code that is written through a link, and on a way back up.
-/

namespace LiveMarkup.Build

open Disk (FileSystem Name Path SystemError Tree Volume)
open Template (CompileError Compilation Options View)

/-! ## Runs -/

/-- What comes of the file at a path of a volume. -/
def compiled (options : Options) (input : Path) (host : String) (volume : Volume) : Compilation :=
  Template.contentCompilation options input host (volume.read input)

variable {options : Options} {input : Path} {host : String} {volume : Volume}

theorem run_fileCompilation (options : Options) (input : Path) (host : String)
    (volume : Volume) :
    (Template.fileCompilation options input host : StateM Volume _).run volume =
      (compiled options input host volume, volume) := rfl

theorem run_check (options : Options) (input : Path) (host : String) (volume : Volume) :
    (check options input host : StateM Volume _).run volume =
      (⟨(compiled options input host volume).result.mapError (.compiling input),
        (compiled options input host volume).records⟩, volume) := rfl

/-- A build without code is passed over or fails, and does nothing. -/
theorem run_build_of_error {e : CompileError}
    (h : (compiled options input host volume).result = .error e) (directory : Option Path) :
    ∃ records, (build options input host directory : StateM Volume _).run volume =
      (⟨if e.isSkippable then .ok (.skipped e) else .error (.compiling input e), records⟩,
        volume) := by
  rw [build, Volume.run_bind, run_fileCompilation]
  simp only [h]
  split
  · exact ⟨_, rfl⟩
  · exact ⟨_, rfl⟩

/-- A build with code comes to what writing the code comes to. -/
theorem run_build_of_ok {view : View}
    (h : (compiled options input host volume).result = .ok view) (directory : Option Path) :
    ∃ records, (build options input host directory : StateM Volume _).run volume =
      let written :=
        (writeView input (directory.getD standardDirectory) view : StateM Volume _).run volume
      (⟨written.1.result, records⟩, written.2) := by
  rw [build, Volume.run_bind, run_fileCompilation]
  simp only [h]
  exact ⟨_, rfl⟩

/-! ## Effects -/

/-- The directories on the way of a path are created, or as many of them as can be. -/
def created (directory : Path) (volume : Volume) : Except SystemError Unit × Volume :=
  (FileSystem.createDirectories directory : StateM Volume _).run volume

theorem extended_created (directory : Path) (volume : Volume) :
    Volume.Extended directory volume (created directory volume).1 (created directory volume).2 :=
  Volume.meets_createDirectories directory volume volume
    ⟨rfl, Tree.Grown.refl directory volume.tree⟩

/-- All that can become of the code of a view, from a given volume: a directory on the way
to it cannot be created, its file cannot be written, or what stands there has taken it. -/
inductive Delivery (input directory : Path) (view : View) (before : Volume) :
    Except Failure Outcome → Volume → Prop where
  | noDirectory {e : SystemError} {after : Volume}
      (hCreated : created directory before = (.error e, after)) :
    Delivery input directory view before (.error (.creatingDirectory directory e)) after
  | noFile {e : SystemError} {after : Volume} (hCreated : created directory before = (.ok (), after))
      (hFailure : after.failure? (.write (outputPath input directory) view.source.toUTF8) =
        some e) :
    Delivery input directory view before
      (.error (.writing (outputPath input directory) e)) after
  | delivered {grown after : Volume} (hCreated : created directory before = (.ok (), grown))
      (hWrite : grown.tree.write (outputPath input directory) view.source.toUTF8 =
        .ok after.tree) :
    Delivery input directory view before
      (.ok (.generated (outputPath input directory) view.diagnostics)) after

theorem delivery_writeView (input directory : Path) (view : View) (volume : Volume) :
    let run := (writeView input directory view : StateM Volume _).run volume
    Delivery input directory view volume run.1.result run.2 := by
  have hRun : (FileSystem.createDirectories directory : StateM Volume _).run volume =
      created directory volume := rfl
  rw [writeView, Volume.run_bind, hRun]
  cases hCreated : created directory volume with
  | mk result middle =>
      cases result with
      | error e => exact .noDirectory hCreated
      | ok _ =>
          simp only [Volume.run_bind]
          have hServe : (FileSystem.write (outputPath input directory) view.source.toUTF8 :
              StateM Volume _) = Volume.serve (.write _ _) := rfl
          rw [hServe]
          rcases Volume.serve_cases (.write (outputPath input directory) view.source.toUTF8)
            middle with ⟨e, hRun, hRefused⟩ | ⟨after, hRun, -, hTree⟩
          · rw [hRun]
            exact .noFile hCreated hRefused
          · rw [hRun]
            exact .delivered hCreated hTree

/-- All that a build can do: nothing if there is no code, and whatever becomes of the
code if there is. -/
inductive Effect (options : Options) (input : Path) (host : String) (directory : Path)
    (volume : Volume) : Except Failure Outcome → Volume → Prop where
  | skipped {e : CompileError} (hError : (compiled options input host volume).result = .error e)
      (hSkippable : e.isSkippable = true) :
    Effect options input host directory volume (.ok (.skipped e)) volume
  | failed {e : CompileError} (hError : (compiled options input host volume).result = .error e)
      (hSkippable : e.isSkippable = false) :
    Effect options input host directory volume (.error (.compiling input e)) volume
  | compiled {view : View} {result : Except Failure Outcome} {after : Volume}
      (hView : (compiled options input host volume).result = .ok view)
      (hDelivery : Delivery input directory view volume result after) :
    Effect options input host directory volume result after

theorem effect_build (options : Options) (input : Path) (host : String)
    (directory : Option Path) (volume : Volume) :
    Effect options input host (directory.getD standardDirectory) volume
      ((build options input host directory : StateM Volume _).run volume).1.result
      ((build options input host directory : StateM Volume _).run volume).2 := by
  cases hResult : (compiled options input host volume).result with
  | error e =>
      obtain ⟨records, hBuild⟩ := run_build_of_error hResult directory
      rw [hBuild]
      cases hSkippable : e.isSkippable with
      | true => exact .skipped hResult hSkippable
      | false => exact .failed hResult hSkippable
  | ok view =>
      obtain ⟨records, hBuild⟩ := run_build_of_ok hResult directory
      rw [hBuild]
      exact .compiled hResult (delivery_writeView input _ view volume)

/-! ## Files with code -/

/-- The name of the code for a file: its stem with another ending if the stem is a text, and
a name for the code of any view if not. -/
def codeName (name : Name) : Name :=
  if (Text.text? (Path.stem name)).isSome then Path.stem name ++ Text.bytes ".rs"
  else Text.bytes "view.rs"

theorem bytes_append (text more : String) :
    Text.bytes (text ++ more) = Text.bytes text ++ Text.bytes more := by
  rw [Text.bytes_eq_encoded, Text.bytes_eq_encoded, Text.bytes_eq_encoded, String.toList_append]
  exact List.flatMap_append

theorem outputPath_eq {name : Name} (h : input.fileName? = some name) (directory : Path) :
    outputPath input directory = directory.inDirectory (codeName name) := by
  have hName : Text.bytes (codeStem input ++ ".rs") = codeName name := by
    rw [codeStem, h, codeName, bytes_append]
    simp only [Option.map_some, Option.bind_some]
    cases hText : Text.text? (Path.stem name) with
    | none => rfl
    | some text =>
        rw [Text.text?_eq_some_iff.mp hText]
        rfl
  rw [outputPath, hName]

/-- Only of bytes that were read is there code. -/
theorem exists_read_of_compiled {view : View}
    (h : (compiled options input host volume).result = .ok view) :
    ∃ bytes, volume.read input = .ok bytes := by
  unfold compiled at h
  cases hRead : volume.read input with
  | ok bytes => exact ⟨bytes, rfl⟩
  | error e =>
      rw [hRead] at h
      cases e <;> cases h

/-- The code of a file is written to a file that is named after it. -/
theorem exists_outputPath {view : View}
    (h : (compiled options input host volume).result = .ok view) (directory : Path) :
    ∃ name, input.fileName? = some name ∧
      outputPath input directory = directory.inDirectory (codeName name) := by
  obtain ⟨bytes, hRead⟩ := exists_read_of_compiled h
  obtain ⟨name, hName⟩ := volume.grounded.exists_fileName (Volume.read_tree_of_read hRead)
  exact ⟨name, hName, outputPath_eq hName directory⟩

/-! ## Agreement -/

/-- The code of a view is in a directory, in a file that is named after the input, or has
gone to a device that stands there. -/
def Generated (input directory : Path) (view : View) (result : Except Failure Outcome)
    (after : Tree) : Prop :=
  ∃ name, input.fileName? = some name ∧
    let path := directory.inDirectory (codeName name)
    result = .ok (.generated path view.diagnostics) ∧
      (after.read path = .ok view.source.toUTF8 ∨ after.ToDevice path)

/-- A directory on the way to the code could not be created: with some of these directories
created, the request for another one failed. -/
def NoDirectory (directory : Path) (volume : Volume) (result : Except Failure Outcome) : Prop :=
  ∃ e grown, result = .error (.creatingDirectory directory e) ∧
    created directory volume = (.error e, grown) ∧
    Volume.Grows directory volume grown ∧ grown.CannotCreate directory e

/-- The code could not be written: with the directories on its way created, the request to
write it failed. -/
def NoFile (input directory : Path) (view : View) (volume : Volume)
    (result : Except Failure Outcome) : Prop :=
  ∃ e grown, result = .error (.writing (outputPath input directory) e) ∧
    created directory volume = (.ok (), grown) ∧ Volume.Grows directory volume grown ∧
    grown.failure? (.write (outputPath input directory) view.source.toUTF8) = some e

/-- **A build comes to what the check says.** A file that passes is built, unless a request
for a directory of the code or for its file fails. A file that is missing or is no
document is passed over for the reason that the check gives, and on every other
error the build fails like the check. -/
theorem build_agrees_with_check (options : Options) (input : Path) (host : String)
    (directory : Option Path) (volume : Volume) :
    let checked := (check options input host : StateM Volume _).run volume
    let built := (build options input host directory : StateM Volume _).run volume
    let directory := directory.getD standardDirectory
    match checked.1.result with
    | .ok view =>
      Generated input directory view built.1.result built.2.tree ∨
        NoDirectory directory volume built.1.result ∨
        NoFile input directory view volume built.1.result
    | .error (.compiling path e) =>
      path = input ∧
        match e with
        | .templateNotFound _ | .malformedMarkup _ _ | .noRootElement =>
          built.1.result = .ok (.skipped e)
        | _ => built.1.result = .error (.compiling input e)
    | .error _ => False := by
  have hEffect := effect_build options input host directory volume
  simp only [run_check]
  rcases hBuilt : (build options input host directory : StateM Volume _).run volume with
    ⟨⟨result, records⟩, after⟩
  rw [hBuilt] at hEffect
  cases hEffect with
  | @skipped e hError hSkippable =>
      rw [hError]
      cases e <;> first | exact ⟨rfl, rfl⟩ | cases hSkippable
  | @failed e hError hSkippable =>
      rw [hError]
      cases e <;> first | exact ⟨rfl, rfl⟩ | cases hSkippable
  | compiled hView hDelivery =>
      rw [hView]
      obtain ⟨name, hName, hPath⟩ := exists_outputPath hView (directory.getD standardDirectory)
      have hExtended := extended_created (directory.getD standardDirectory) volume
      cases hDelivery with
      | noDirectory hCreated =>
          rw [hCreated] at hExtended
          exact .inr (.inl ⟨_, _, rfl, hCreated, hExtended.1, hExtended.2 _ rfl⟩)
      | noFile hCreated hFailure =>
          rw [hCreated] at hExtended
          exact .inr (.inr ⟨_, _, rfl, hCreated, hExtended.1, hFailure⟩)
      | @delivered grown _ _ hWrite =>
          rw [hPath] at hWrite ⊢
          exact .inl ⟨name, hName, rfl, grown.grounded.read_of_write hWrite⟩

/-! ## An element in a file -/

/-- A file that holds one element passes the check, its code begins with a comment, and a
build comes to what writing this code comes to. -/
theorem exists_built {input : Path} {volume : Volume}
    (hRead : volume.read input = .ok "<a/>".toUTF8) :
    ∃ view, ((check .standard input "Host" : StateM Volume _).run volume).1.result = .ok view ∧
      ['/', '/'] <+: Template.firstLine view.source ∧ ∀ directory : Path,
        let built := (build .standard input "Host" (some directory) : StateM Volume _).run volume
        let written := (writeView input directory view : StateM Volume _).run volume
        built.1.result = written.1.result ∧ built.2 = written.2 := by
  have hHost : Code.typeName? "Host" = some "Host" := by decide +kernel
  obtain ⟨document, plan, hCompile⟩ := Template.exists_compile_element hHost
  obtain ⟨name, -, hRun⟩ := Template.exists_run_fileCompilation .standard input "Host" hRead
  have hCompiled : compiled .standard input "Host" volume =
      Template.compilation .standard (Text.text? name) "Host" "<a/>" := congrArg Prod.fst hRun
  rcases Template.compilation_origin .standard (Text.text? name) "Host" "<a/>" with
    ⟨e, -, hError⟩ | ⟨identifier, document, plan, hResult, -⟩
  · exact nomatch hCompile.symm.trans hError
  · rw [← hCompiled] at hResult
    obtain ⟨rest, hSource⟩ :=
      Template.exists_source_behind .standard "Host" identifier document plan
    have hChecked : ((check .standard input "Host" : StateM Volume _).run volume).1.result =
        .ok (Template.viewOf .standard (Text.text? name) "Host" identifier document plan) := by
      rw [run_check, hResult]
      rfl
    refine ⟨_, hChecked, ?_, fun directory => ?_⟩
    · rw [hSource]
      exact Template.slashes_prefix_firstLine _ rest
    · obtain ⟨records, hBuild⟩ := run_build_of_ok hResult (some directory)
      rw [hBuild]
      exact ⟨rfl, rfl⟩

/-- What begins with a comment is not what does not. -/
theorem toUTF8_ne {source text : String} (hSource : ['/', '/'] <+: Template.firstLine source)
    (hText : ¬ ['/', '/'] <+: Template.firstLine text) : source.toUTF8 ≠ text.toUTF8 := by
  intro hEq
  rw [String.toByteArray_inj.mp hEq] at hSource
  exact hText hSource

/-- An element in a file is built, and its file holds the code. -/
theorem build_delivers :
    let volume := Volume.ofFile (Text.bytes "view.xml") "<a/>".toUTF8
    let built := (build .standard "view.xml" "Host" (some "out") : StateM Volume _).run volume
    ∃ view, ((check .standard "view.xml" "Host" : StateM Volume _).run volume).1.result =
        .ok view ∧
      built.1.result = .ok (.generated "out/view.rs" view.diagnostics) ∧
      built.2.tree.read "out/view.rs" = .ok view.source.toUTF8 := by
  intro volume built
  have hRead : volume.read "view.xml" = .ok "<a/>".toUTF8 := by with_unfolding_all rfl
  obtain ⟨view, hChecked, -, hBuilt⟩ := exists_built hRead
  obtain ⟨hResult, hAfter⟩ := hBuilt "out"
  -- neither a failure nor a device is in the way
  obtain ⟨⟨outcome, hOutcome⟩, hPlace, hFile⟩ :
      let written := (writeView "view.xml" "out" view : StateM Volume _).run volume
      (∃ outcome, written.1.result = .ok outcome) ∧
        written.2.tree.locate "out/view.rs" = .ok [Text.bytes "out", Text.bytes "view.rs"] ∧
        written.2.tree.get? [Text.bytes "out", Text.bytes "view.rs"] = some (.file 1) :=
    ⟨⟨_, by with_unfolding_all rfl⟩, by with_unfolding_all rfl, by with_unfolding_all rfl⟩
  rw [← hResult] at hOutcome
  rw [← hAfter] at hPlace hFile
  have hAgrees := build_agrees_with_check .standard "view.xml" "Host" (some "out") volume
  simp only [hChecked] at hAgrees
  refine ⟨view, hChecked, ?_⟩
  rcases hAgrees with
    ⟨name, hName, hGenerated, hRead⟩ | ⟨e, _, hFailed, -⟩ | ⟨e, _, hFailed, -⟩
  · have hFileName : (Path.ofText "view.xml").fileName? = some (Text.bytes "view.xml") := by
      decide +kernel
    obtain rfl := Option.some.inj (hFileName.symm.trans hName)
    have hPath : (Path.ofText "out").inDirectory (codeName (Text.bytes "view.xml")) =
        "out/view.rs" := by decide +kernel
    simp only [Option.getD_some, hPath] at hGenerated hRead
    refine ⟨hGenerated, hRead.resolve_right ?_⟩
    rintro ⟨place, given, hThere, hDevice⟩
    obtain rfl := Except.ok.inj (hPlace.symm.trans hThere)
    exact nomatch hFile.symm.trans hDevice
  · exact nomatch hOutcome.symm.trans hFailed
  · exact nomatch hOutcome.symm.trans hFailed

/-- The path that is made of a directory, a slash, and the stem of a file with another
ending, whatever the directory and the stem are. -/
def stemPath (directory : Path) (name : Name) : Path :=
  ⟨directory.bytes ++ Disk.slash :: (Path.stem name ++ Text.bytes ".rs")⟩

/-- A volume with a document, and a device where its code is written to. -/
def deviceVolume : Volume :=
  Volume.ofTree
    ⟨[([Text.bytes "a.xml"], .file 0), ([Text.bytes "out"], .directory),
      ([Text.bytes "out", Text.bytes "a.rs"], .device "".toUTF8)], ["<a/>".toUTF8], []⟩
    (by decide +kernel)

/-- The code for a document whose name is no text is not named after it, the code for the
empty directory is not in the root, and a device does not hold its code. -/
theorem build_elsewhere :
    (let name := Text.bytes "a" ++ 0xff :: Text.bytes ".xml"
      let input : Path := ⟨name⟩
      let volume := Volume.ofFile name "<a/>".toUTF8
      input.fileName? = some name ∧ Path.ofText "out/view.rs" ≠ stemPath "out" name ∧
        ∃ view, ((check .standard input "Host" : StateM Volume _).run volume).1.result =
            .ok view ∧
          ((build .standard input "Host" (some "out") : StateM Volume _).run volume).1.result =
            .ok (.generated "out/view.rs" view.diagnostics)) ∧
    (let name := Text.bytes "a.xml"
      let input : Path := ⟨name⟩
      let volume := Volume.ofFile name "<a/>".toUTF8
      input.fileName? = some name ∧ Path.ofText "a.rs" ≠ stemPath "" name ∧
        ∃ view, ((check .standard input "Host" : StateM Volume _).run volume).1.result =
            .ok view ∧
          ((build .standard input "Host" (some "") : StateM Volume _).run volume).1.result =
            .ok (.generated "a.rs" view.diagnostics)) ∧
    (let built := (build .standard "a.xml" "Host" (some "out") : StateM Volume _).run deviceVolume
      ∃ view, ((check .standard "a.xml" "Host" : StateM Volume _).run deviceVolume).1.result =
          .ok view ∧
        built.1.result = .ok (.generated "out/a.rs" view.diagnostics) ∧
        built.2.tree.read "out/a.rs" = .ok "".toUTF8 ∧ view.source.toUTF8 ≠ "".toUTF8) := by
  refine ⟨?_, ?_, ?_⟩
  · intro name input volume
    have hRead : volume.read input = .ok "<a/>".toUTF8 := by with_unfolding_all rfl
    obtain ⟨view, hChecked, -, hBuilt⟩ := exists_built hRead
    refine ⟨by decide +kernel, by decide +kernel, view, hChecked, ?_⟩
    rw [(hBuilt "out").1]
    with_unfolding_all rfl
  · intro name input volume
    have hRead : volume.read input = .ok "<a/>".toUTF8 := by with_unfolding_all rfl
    obtain ⟨view, hChecked, -, hBuilt⟩ := exists_built hRead
    refine ⟨by decide +kernel, by decide +kernel, view, hChecked, ?_⟩
    rw [(hBuilt "").1]
    with_unfolding_all rfl
  · have hRead : deviceVolume.read "a.xml" = .ok "<a/>".toUTF8 := by with_unfolding_all rfl
    obtain ⟨view, hChecked, hFront, hBuilt⟩ := exists_built hRead
    refine ⟨view, hChecked, ?_, ?_, toUTF8_ne hFront (by decide)⟩
    · rw [(hBuilt "out").1]
      with_unfolding_all rfl
    · rw [(hBuilt "out").2]
      with_unfolding_all rfl

/-! ## Changes -/

/-- **A build changes nothing but the file of the code and the missing directories on
its way.** A check changes nothing, and neither does a build that is passed over or
fails because there is no code. Where there is code, its path leads to one place, through
links if they stand there. What stands at the other places stays, but for directories
that were missing on the way of the named one, and whatever could be read before is read
afterwards, but at paths that lead to the file of the code. -/
theorem build_changes_only_its_output (options : Options) (input : Path) (host : String)
    (directory : Option Path) (volume : Volume) :
    let checked := (check options input host : StateM Volume _).run volume
    let built := (build options input host directory : StateM Volume _).run volume
    let directory := directory.getD standardDirectory
    checked.2 = volume ∧
      match built.1.result with
      | .ok (.skipped _) | .error (.compiling _ _) => built.2 = volume
      | .ok (.generated path _) =>
        (∃ name, input.fileName? = some name ∧ path = directory.inDirectory (codeName name)) ∧
        (∃ place, built.2.tree.locate path = .ok place ∧
          Tree.Wrote directory place volume.tree built.2.tree) ∧
        ∀ other content, volume.tree.read other = .ok content →
          built.2.tree.read other = .ok content ∨ built.2.tree.OneFile other path
      | .error _ => True := by
  refine ⟨rfl, ?_⟩
  have hEffect := effect_build options input host directory volume
  rcases hBuilt : (build options input host directory : StateM Volume _).run volume with
    ⟨⟨result, records⟩, after⟩
  rw [hBuilt] at hEffect
  cases hEffect with
  | skipped => rfl
  | failed => rfl
  | compiled hView hDelivery =>
      obtain ⟨name, hName, hPath⟩ := exists_outputPath hView (directory.getD standardDirectory)
      cases hDelivery with
      | noDirectory => trivial
      | noFile => trivial
      | delivered hCreated hWrite =>
          have hExtended := extended_created (directory.getD standardDirectory) volume
          rw [hCreated] at hExtended
          obtain ⟨place, hPlace, hWrote⟩ := hExtended.1.2.write hWrite
          exact ⟨⟨name, hName, hPath⟩, ⟨place, hPlace, hWrote⟩,
            fun other content hRead => hWrote.read volume.grounded hPlace hRead⟩

/-- A volume with a document, an older file in one directory, and a link to it in another
one. -/
def linkedVolume : Volume :=
  Volume.ofTree
    ⟨[([Text.bytes "a.xml"], .file 0), ([Text.bytes "p"], .directory),
      ([Text.bytes "p", Text.bytes "a.rs"], .file 1), ([Text.bytes "q"], .directory),
      ([Text.bytes "q", Text.bytes "a.rs"], .link "../p/a.rs")],
      ["<a/>".toUTF8, "old".toUTF8], []⟩
    (by decide +kernel)

/-- Code that is written through a link, or to a path that goes down and up again, is the
content of another path as well. -/
theorem build_through_link :
    linkedVolume.tree.read "p/a.rs" = .ok "old".toUTF8 ∧
    Path.ofText "p/a.rs" ≠ "q/a.rs" ∧
    (let built := (build .standard "a.xml" "Host" (some "q") : StateM Volume _).run linkedVolume
      ∃ diagnostics code, built.1.result = .ok (.generated "q/a.rs" diagnostics) ∧
        built.2.tree.read "p/a.rs" = .ok code ∧ code ≠ "old".toUTF8) ∧
    Path.ofText "p/a.rs" ≠ "q/../p/a.rs" ∧
    (let built :=
        (build .standard "a.xml" "Host" (some "q/../p") : StateM Volume _).run linkedVolume
      ∃ diagnostics code, built.1.result = .ok (.generated "q/../p/a.rs" diagnostics) ∧
        built.2.tree.read "p/a.rs" = .ok code ∧ code ≠ "old".toUTF8) := by
  have hRead : linkedVolume.read "a.xml" = .ok "<a/>".toUTF8 := by with_unfolding_all rfl
  obtain ⟨view, -, hFront, hBuilt⟩ := exists_built hRead
  have hOld : view.source.toUTF8 ≠ "old".toUTF8 := toUTF8_ne hFront (by decide)
  refine ⟨by with_unfolding_all rfl, by decide +kernel, ?_, by decide +kernel, ?_⟩
  · refine ⟨view.diagnostics, _, ?_, ?_, hOld⟩
    · rw [(hBuilt "q").1]
      with_unfolding_all rfl
    · rw [(hBuilt "q").2]
      with_unfolding_all rfl
  · refine ⟨view.diagnostics, _, ?_, ?_, hOld⟩
    · rw [(hBuilt "q/../p").1]
      with_unfolding_all rfl
    · rw [(hBuilt "q/../p").2]
      with_unfolding_all rfl

end LiveMarkup.Build
