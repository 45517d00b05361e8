import LiveMarkup.Settings.Options
import LiveMarkup.Template.Error

/-!
# Why a command fails
-/

namespace LiveMarkup.Build

open Disk (Path SystemError)
open Settings (SettingsError)
open Template (CompileError)

/-- Why a command cannot do what it is for: what it was about, and what was in the way. -/
inductive Failure where
  | compiling (path : Path) (cause : CompileError)
  | creatingDirectory (path : Path) (cause : SystemError)
  | writing (path : Path) (cause : SystemError)
  | readingSettings (path : Path) (cause : SystemError)
  | invalidSettings (path : Path) (cause : SettingsError)
  /-- Nobody told a build script where to put the code. -/
  | noOutputDirectory
  deriving DecidableEq, Repr

namespace Failure

/-- What the command was about. -/
def message : Failure → String
  | compiling path _ => "failed to compile " ++ path.shown
  | creatingDirectory path _ => "failed to create " ++ path.shown
  | writing path _ => "failed to write " ++ path.shown
  | readingSettings path _ => "failed to read " ++ path.shown
  | invalidSettings path _ => "invalid config " ++ path.shown
  | noOutputDirectory => "OUT_DIR is not set; call from build.rs"

/-- What was in the way, and what that was caused by. -/
def causes : Failure → List String
  | compiling _ cause => cause.chain
  | creatingDirectory _ cause => [cause.text]
  | writing _ cause => [cause.text]
  | readingSettings _ cause => [cause.text]
  | invalidSettings _ cause => [cause.message]
  | noOutputDirectory => []

/-- The failure and what it was caused by, the outermost first. -/
def chain (f : Failure) : List String :=
  f.message :: f.causes

end Failure

end LiveMarkup.Build
