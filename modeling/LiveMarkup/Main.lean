import LiveMarkup.Command.Response

/-!
# The program

Answers its command line from the files of the machine.
-/

namespace LiveMarkup

open Disk (FileSystem Path SystemError)

/-- The number of an error of the system and its words, as they are reported. -/
def reportedCode : IO.Error → UInt32 × String
  | .noFileOrDirectory _ code text => (code, text)
  | .alreadyExists _ code text => (code, text)
  | .inappropriateType _ code text => (code, text)
  | .permissionDenied _ code text => (code, text)
  | .invalidArgument _ code text => (code, text)
  | .resourceExhausted _ code text => (code, text)
  | .noSuchThing _ code text => (code, text)
  | .otherError code text => (code, text)
  | e => (0, toString e)

/-- The number of an error. Some calls report it with its sign changed. -/
def errorNumber (code : UInt32) : UInt32 :=
  if code < 0x80000000 then code else 0 - code

/-- An error of the system as the program knows it. -/
def systemError (e : IO.Error) : SystemError :=
  let (code, text) := reportedCode e
  match errorNumber code with
  | 2 => .notFound
  | 17 => .alreadyExists
  | 20 => .notADirectory
  | 21 => .isADirectory
  | 40 => .tooManyLinks
  | number => .other (text ++ " (os error " ++ toString number ++ ")")

/-- The answer to a request to the machine. -/
def attempt {α : Type} (action : IO α) : IO (Except SystemError α) := do
  match ← action.toBaseIO with
  | .ok a => return .ok a
  | .error e => return .error (systemError e)

/-- The answer to a request to the machine about a path. The machine is asked for texts, and all paths
are that come from a command line. -/
def attemptAt {α : Type} (path : Path) (action : String → IO α) : IO (Except SystemError α) :=
  match Text.text? path.bytes with
  | some text => attempt (action text)
  | none => return .error (.other "stream did not contain valid UTF-8")

instance : FileSystem IO where
  read path := attemptAt path fun text => IO.FS.readBinFile text
  write path content := attemptAt path fun text => IO.FS.writeBinFile text content
  createDirectory path := attemptAt path fun text => IO.FS.createDir text
  isDirectory path := do
    match ← attemptAt path fun text => IO.FS.readBinFile text with
    | .error .isADirectory => return true
    | _ => return false

end LiveMarkup

/-- Answers the command line. -/
def main (arguments : List String) : IO UInt32 := do
  let response ← LiveMarkup.Command.respond arguments
  (← IO.getStderr).putStr response.messages
  (← IO.getStdout).putStr response.output
  return UInt32.ofNat response.exitCode
