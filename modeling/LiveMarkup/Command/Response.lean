import LiveMarkup.Build.Outcome
import LiveMarkup.Command.Arguments
import LiveMarkup.Command.Report

/-!
# Running command lines

A command line is answered by an exit code and two texts. The exit code is zero if all went well, one
if a command failed, and two if the line was a misuse.
-/

namespace LiveMarkup.Command

open Build (Failure Outcome Run)
open Disk (FileSystem Path)
open Template (Options View)

/-- The answer to a command line. -/
structure Response where
  exitCode : Nat
  output : String
  messages : String
  deriving DecidableEq, Repr

/-- How a command line is written. -/
def usage : String :=
  "Usage: trellis [-v...] build INPUT --host HOST [--out-dir DIR] [OPTIONS]\n"
    ++ "       trellis [-v...] check INPUT --host HOST [OPTIONS]\n"
    ++ "Options: --config FILE, --strict, --runtime-path PATH, -v, --help, --version\n"

/-- What a build prints. -/
def outcomeText : Outcome → String
  | .generated path _ => "Generated: " ++ path.shown ++ "\n"
  | .skipped reason => "Skipped: " ++ reason.message ++ "\n"

/-- What a check prints. -/
def viewText (input : String) (view : View) : String :=
  String.join (view.diagnostics.map fun d => input ++ ": warning: " ++ d.text ++ "\n")
    ++ input ++ ": ok (" ++ toString view.diagnostics.length ++ " warnings)\n"

/-- The answer to a command that has been run. -/
def Response.ofRun {α : Type} (verbosity : Nat) (print : α → String) (run : Run α) : Response :=
  let told := recordLines verbosity run.records
  match run.result with
  | .ok a => ⟨0, print a, told⟩
  | .error f => ⟨1, "", told ++ failureLines f⟩

variable {m : Type → Type} [Monad m] [FileSystem m]

/-- The options for a command. What the command line says goes before the settings. -/
def Target.options (target : Target) : m (Except Failure Options) := do
  let loaded ← match target.settings with
    | some path => Build.loadOptions path
    | none => pure (.ok Options.standard)
  return loaded.map fun options =>
    { options with
      strictDirectives := target.strict || options.strictDirectives
      runtimePath := target.runtimePath.getD options.runtimePath }

/-- Runs a command with its options, or fails if there are none. -/
def Target.run {α : Type} (target : Target) (command : Options → m (Run α)) : m (Run α) := do
  match ← target.options with
  | .ok options => command options
  | .error f => return ⟨.error f, []⟩

/-- Runs a command. -/
def Task.respond (verbosity : Nat) : Task → m Response
  | .build target directory =>
    return Response.ofRun verbosity outcomeText
      (← target.run fun options =>
        Build.build options target.input target.host (directory.map Path.ofText))
  | .check target =>
    return Response.ofRun verbosity (viewText target.input)
      (← target.run fun options => Build.check options target.input target.host)

/-- Answers a command line. -/
def respond (arguments : List String) : m Response :=
  match Request.ofArguments arguments with
  | .help => return ⟨0, usage, ""⟩
  | .version => return ⟨0, "trellis 0.1.0\n", ""⟩
  | .misuse => return ⟨2, "", usage⟩
  | .run verbosity task => task.respond verbosity

end LiveMarkup.Command
