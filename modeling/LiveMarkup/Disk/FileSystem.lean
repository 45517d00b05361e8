import LiveMarkup.Disk.Error
import LiveMarkup.Disk.Path

/-!
# File systems

What the program asks of a file system. The program is written for any file system: the one of the
machine, and the one in memory that its laws are stated for.
-/

namespace LiveMarkup.Disk

/-- The requests to a file system, answered in the monad `m`. -/
class FileSystem (m : Type → Type) where
  /-- The bytes of the file at a path. -/
  read : Path → m (Except SystemError ByteArray)
  /-- Makes the bytes the content of the file at a path, which need not exist before. -/
  write : Path → ByteArray → m (Except SystemError Unit)
  /-- Creates a directory in an existing one. -/
  createDirectory : Path → m (Except SystemError Unit)
  /-- Whether there is a directory at a path. -/
  isDirectory : Path → m Bool

namespace FileSystem

variable {m : Type → Type} [Monad m] [FileSystem m]

/-- The failure `e` to create a directory, which is none if the directory is there. -/
def tolerate (path : Path) (e : SystemError) : m (Except SystemError Unit) := do
  if ← isDirectory path then return .ok () else return .error e

/-- Creates the first directory of a list in which every directory lies in the next one. If something
is missing on the way to it, the next one is created before. -/
def createFrom : List Path → m (Except SystemError Unit)
  | [] => return .ok ()
  | path :: above => do
    match ← createDirectory path with
    | .ok () => return .ok ()
    | .error .notFound =>
      match ← createFrom above with
      | .error e => return .error e
      | .ok () =>
        match ← createDirectory path with
        | .ok () => return .ok ()
        | .error e => tolerate path e
    | .error e => tolerate path e

/-- Makes sure that there is a directory at a path, and creates those on the way to it that are
missing. The empty path asks for nothing. -/
def createDirectories (path : Path) : m (Except SystemError Unit) :=
  if path.isEmpty then return .ok () else createFrom (path :: Path.ancestors path)

end FileSystem

end LiveMarkup.Disk
