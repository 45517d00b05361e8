import LiveMarkup.Build.Failure
import LiveMarkup.Template.File

/-!
# Building and checking

A build compiles a file and writes the code into a file of its own; a check compiles only. A build
passes over a document that is missing or malformed, as long as nothing is wrong but the markup; a
check takes every error for a failure.
-/

namespace LiveMarkup.Build

open Disk (FileSystem Path)
open Template (CompileError Diagnostic Options View)

/-- What a build came to. -/
inductive Outcome where
  /-- The code was written to the file at `path`. -/
  | generated (path : Path) (diagnostics : List Diagnostic)
  /-- There is no code, and the build goes on. -/
  | skipped (reason : CompileError)
  deriving DecidableEq

/-- What a command comes to, and what is remarked on the way. -/
structure Run (α : Type) where
  result : Except Failure α
  records : List LogRecord

/-- The directory for code if none is named. -/
def standardDirectory : Path := "target/trellis-gen"

/-- What the code for the document at `input` is named after: the stem of the document, or a word for
any view where that is no text. -/
def codeStem (input : Path) : String :=
  ((input.fileName?.map Path.stem).bind Text.text?).getD "view"

/-- The path of the code for the document at `input`. -/
def outputPath (input directory : Path) : Path :=
  directory.inDirectory (Text.bytes (codeStem input ++ ".rs"))

/-- A record of a command. -/
def record (level : LogLevel) (message : String) : LogRecord :=
  ⟨level, "trellis_cli", message⟩

variable {m : Type → Type} [Monad m] [FileSystem m]

/-- Writes the code of a view into a directory, which is created if it is missing. -/
def writeView (input directory : Path) (view : View) : m (Run Outcome) := do
  let remarked := view.diagnostics.map fun d => record .warn (input.shown ++ ": " ++ d.text)
  match ← FileSystem.createDirectories directory with
  | .error e => return ⟨.error (.creatingDirectory directory e), remarked⟩
  | .ok () =>
    let path := outputPath input directory
    match ← FileSystem.write path view.source.toUTF8 with
    | .error e => return ⟨.error (.writing path e), remarked⟩
    | .ok () =>
      let done := record .info ("generated " ++ path.shown ++ " (" ++ view.moduleName ++ ")")
      return ⟨.ok (.generated path view.diagnostics), remarked ++ [done]⟩

/-- Compiles the file at `input` for a host and writes the code into a directory. -/
def build (options : Options) (input : Path) (host : String) (directory : Option Path) :
    m (Run Outcome) := do
  let compiled ← Template.fileCompilation options input host
  match compiled.result with
  | .error e =>
    if e.isSkippable then
      return ⟨.ok (.skipped e),
        compiled.records ++ [record .warn ("skipping " ++ input.shown ++ ": " ++ e.message)]⟩
    else return ⟨.error (.compiling input e), compiled.records⟩
  | .ok view =>
    let run ← writeView input (directory.getD standardDirectory) view
    return { run with records := compiled.records ++ run.records }

/-- Compiles the file at `input` for a host and writes nothing. -/
def check (options : Options) (input : Path) (host : String) : m (Run View) := do
  let compiled ← Template.fileCompilation options input host
  return ⟨compiled.result.mapError (.compiling input), compiled.records⟩

/-- The options that a file of settings asks for. -/
def loadOptions (path : Path) : m (Except Failure Options) := do
  match ← FileSystem.read path with
  | .error e => return .error (.readingSettings path e)
  | .ok bytes =>
    match Text.decode bytes with
    | .error _ =>
      return .error (.readingSettings path (.other "stream did not contain valid UTF-8"))
    | .ok text => return (Settings.options (String.ofList text)).mapError (.invalidSettings path)

end LiveMarkup.Build
