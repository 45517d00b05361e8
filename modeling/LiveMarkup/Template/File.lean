import LiveMarkup.Disk.FileSystem
import LiveMarkup.Template.View
import LiveMarkup.Text.Utf8

/-!
# Compiling files

A document in a file is compiled like a text, and the code tells the name of the file if that is a
text too. The bytes are looked at before the host: where they are not UTF-8, the fault is at the end of
the longest prefix that is, counted in the characters of that prefix.
-/

namespace LiveMarkup.Template

open Disk (FileSystem Path SystemError)

/-- What comes of a file at `path`, given what reading it gave. -/
def contentCompilation (options : Options) (path : Path) (host : String) :
    Except SystemError ByteArray → Compilation
  | .error .notFound => ⟨.error (.templateNotFound path), []⟩
  | .error e => ⟨.error (.unreadable path e), []⟩
  | .ok bytes =>
    match Text.decode bytes with
    | .error valid =>
      ⟨.error (.malformedMarkup (Text.Position.start.advance valid) .invalidUtf8), []⟩
    | .ok text =>
      compilation options (path.fileName?.bind Text.text?) host (String.ofList text)

/-- Compiles the file at a path. -/
def fileCompilation {m : Type → Type} [Monad m] [FileSystem m] (options : Options)
    (path : Path) (host : String) : m Compilation :=
  return contentCompilation options path host (← FileSystem.read path)

end LiveMarkup.Template
