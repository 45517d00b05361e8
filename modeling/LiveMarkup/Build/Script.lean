import LiveMarkup.Build.Outcome

/-!
# Builds within builds

A build that is part of another one tells the outer build, in lines of a fixed form, which file it
depends on and what there is to warn of.
-/

namespace LiveMarkup.Build

open Disk (FileSystem Path)
open Template (Options)

/-- What a build script prints, line by line, and what it comes to. -/
structure ScriptRun where
  lines : List String
  run : Run Outcome

/-- The warnings on an outcome. -/
def Outcome.warnings (input : Path) : Outcome → List String
  | .generated _ diagnostics =>
    diagnostics.map fun d => "cargo:warning=" ++ input.shown ++ ": " ++ d.text
  | .skipped reason => ["cargo:warning=skipped " ++ input.shown ++ ": " ++ reason.message]

/-- Compiles the file at `input` for a host into the directory that the outer build names. -/
def buildScript {m : Type → Type} [Monad m] [FileSystem m] (options : Options)
    (input : Path) (host : String) (directory : Option Path) : m ScriptRun := do
  match directory with
  | none => return ⟨[], ⟨.error .noOutputDirectory, []⟩⟩
  | some directory =>
    let run ← build options input host (some directory)
    let warnings := match run.result with
      | .ok outcome => outcome.warnings input
      | .error _ => []
    return ⟨("cargo:rerun-if-changed=" ++ input.shown) :: warnings, run⟩

end LiveMarkup.Build
