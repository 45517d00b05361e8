import LiveMarkup.Text.Utf8

/-!
# Paths

A path is a row of names between slashes. It is followed a step at a time, from the root of the file
system if it begins with a slash and from the working directory otherwise: a name leads down, two dots
lead up, one dot leads nowhere, and so does an empty name. A step can only be taken from a directory,
so a path that ends in a slash or a dot leads to nothing but a directory.

The components of a path are its steps without those that lead nowhere; only a dot at the very
beginning is kept.

Names are bytes. Most of them are texts, and a text is a path; but a file may have a name that is none.
-/

namespace LiveMarkup.Disk

/-- The name of a file: bytes, which need not be a text. -/
abbrev Name := List UInt8

/-- What stands between names. -/
def slash : UInt8 := 0x2f

/-- What is in front of the ending of a name, and means the place itself where it stands alone. -/
def dot : UInt8 := 0x2e

/-- A way to a file. -/
structure Path where
  bytes : List UInt8
  deriving DecidableEq, Repr

/-- A step from one place to another. -/
inductive Step where
  | stay
  | up
  | down (name : Name)
  deriving DecidableEq, Repr

namespace Step

/-- The step that a name stands for. -/
def ofName (name : Name) : Step :=
  if name = [] ∨ name = [dot] then stay
  else if name = [dot, dot] then up
  else down name

/-- The step as part of a path. -/
def name : Step → Name
  | stay => [dot]
  | up => [dot, dot]
  | down name => name

end Step

namespace Path

/-- The path that a text is. -/
def ofText (text : String) : Path :=
  ⟨Text.bytes text⟩

instance : Coe String Path := ⟨ofText⟩

/-- The path as it is shown. What is no text in it is replaced. -/
def shown (path : Path) : String :=
  String.ofList (Text.shown path.bytes)

/-- Whether the path has no bytes. -/
def isEmpty (path : Path) : Bool :=
  path.bytes.isEmpty

/-- The names between the slashes. -/
def names : List UInt8 → List Name
  | [] => [[]]
  | b :: rest =>
    if b = slash then [] :: names rest
    else
      match names rest with
      | [] => [[b]]
      | name :: more => (b :: name) :: more

/-- Whether the path begins at the root. -/
def isAbsolute (path : Path) : Bool :=
  path.bytes.head? == some slash

/-- The steps of a path. -/
def steps (path : Path) : List Step :=
  (names path.bytes).map Step.ofName

/-- The components of a path. -/
def components (path : Path) : List Step :=
  let kept := (steps path).filter (· ≠ .stay)
  if path.bytes.head? = some dot ∧ (steps path).head? = some .stay then .stay :: kept else kept

/-- The path with the given components. -/
def ofComponents (absolute : Bool) (components : List Step) : Path :=
  ⟨(if absolute then [slash] else []) ++ [slash].intercalate (components.map Step.name)⟩

/-- The name of the file at a path, unless the path ends in a step up or has no names. -/
def fileName? (path : Path) : Option Name :=
  match (components path).getLast? with
  | some (.down name) => some name
  | _ => none

/-- A file name up to its last dot, unless the name begins with that dot or has none. -/
def stem (name : Name) : Name :=
  let behind := name.reverse.takeWhile (· ≠ dot)
  let before := (name.reverse.drop (behind.length + 1)).reverse
  if before.isEmpty then name else before

/-- The path of a file in a directory. The directory at the empty path is the working directory. -/
def inDirectory (directory : Path) (name : Name) : Path :=
  if directory.isEmpty ∨ directory.bytes.getLast? = some slash then ⟨directory.bytes ++ name⟩
  else ⟨directory.bytes ++ slash :: name⟩

/-- The directories that components lead through behind those that have been passed, the deepest
first. The last component is where they lead to. -/
def passing (absolute : Bool) (passed : List Step) : List Step → List Path
  | [] | [_] => []
  | step :: rest =>
    passing absolute (passed ++ [step]) rest ++ [ofComponents absolute (passed ++ [step])]

/-- The directories that a path leads through, the deepest first. -/
def ancestors (path : Path) : List Path :=
  passing (isAbsolute path) [] (components path)

end Path

end LiveMarkup.Disk
