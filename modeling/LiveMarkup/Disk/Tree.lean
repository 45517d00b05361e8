import LiveMarkup.Disk.FileSystem

/-!
# Files in memory

A tree of files is kept as a table from locations to what stands there. A location is the list of the
names from the root down. There is always a directory at the root.

The content of a file is kept apart from the table, under a number, so that one file may stand at
several locations. A link stands for what its target leads to from the directory that the link lies in.
A device is no file: what is read from it is not what was written to it.

## Main results

* `get?_put_self`, `get?_put_ne` — an entry that was put stands at its location, and the other
  locations keep what they have.
-/

namespace LiveMarkup.Disk

/-- A place in a tree of files: the names from the root down. -/
abbrev Location := List Name

/-- What stands at a location. -/
inductive Entry where
  | directory
  /-- A file, by the number of its content. -/
  | file (number : Nat)
  | link (target : Path)
  /-- Something that gives bytes to whoever reads it, and keeps nothing of what it takes. -/
  | device (given : ByteArray)

/-- Where a step leads to. There is no way up from the root. -/
def Step.from (step : Step) (location : Location) : Location :=
  match step with
  | .stay => location
  | .up => location.dropLast
  | .down name => location ++ [name]

/-- Where a path begins that is looked up in a directory. -/
def Path.start (path : Path) (here : Location) : Location :=
  if path.isAbsolute then [] else here

/-- A tree of files, and the directory in which paths begin. -/
structure Tree where
  entries : List (Location × Entry)
  /-- What is in the files, by their numbers. -/
  contents : List ByteArray
  workingDirectory : Location

namespace Tree

/-- A tree with nothing but its root. -/
def empty : Tree := ⟨[], [], []⟩

instance : Inhabited Tree := ⟨empty⟩

/-- The entry at a location in a table. -/
def lookUp (location : Location) : List (Location × Entry) → Option Entry
  | [] => none
  | (other, entry) :: rest => if other = location then some entry else lookUp location rest

/-- A table with an entry at a location, in the place of the old one if there was one. -/
def putEntry (location : Location) (entry : Entry) :
    List (Location × Entry) → List (Location × Entry)
  | [] => [(location, entry)]
  | (other, old) :: rest =>
    if other = location then (location, entry) :: rest
    else (other, old) :: putEntry location entry rest

/-- What stands at a location. -/
def get? (tree : Tree) (location : Location) : Option Entry :=
  if location = [] then some .directory else lookUp location tree.entries

/-- The tree with an entry at a location. -/
def put (tree : Tree) (location : Location) (entry : Entry) : Tree :=
  { tree with entries := putEntry location entry tree.entries }

/-- An entry that was put stands at its location. -/
theorem get?_put_self (tree : Tree) {location : Location} (entry : Entry)
    (h : location ≠ []) : (tree.put location entry).get? location = some entry := by
  simp only [get?, put, if_neg h]
  induction tree.entries with
  | nil => simp [putEntry, lookUp]
  | cons first rest ih =>
    obtain ⟨other, old⟩ := first
    by_cases ho : other = location <;> simp [putEntry, lookUp, ho, ih]

/-- The other locations keep what they have. -/
theorem get?_put_ne (tree : Tree) {location other : Location} (entry : Entry)
    (h : other ≠ location) : (tree.put location entry).get? other = tree.get? other := by
  simp only [get?, put]
  split
  · rfl
  · induction tree.entries with
    | nil => simp [putEntry, lookUp, Ne.symm h]
    | cons first rest ih =>
      obtain ⟨next, old⟩ := first
      by_cases hn : next = location
      · subst hn
        simp [putEntry, lookUp, Ne.symm h]
      · simp [putEntry, lookUp, hn, ih]

/-- The content of a file. -/
def content (tree : Tree) (number : Nat) : ByteArray :=
  tree.contents[number]?.getD .empty

/-- The tree with a new file at a location. -/
def create (tree : Tree) (location : Location) (content : ByteArray) : Tree :=
  { tree.put location (.file tree.contents.length) with contents := tree.contents ++ [content] }

/-- The tree with another content of a file, at all its locations. -/
def fill (tree : Tree) (number : Nat) (content : ByteArray) : Tree :=
  { tree with contents := tree.contents.set number content }

/-! ## Following paths -/

/-- How often one link may lead to the next on the way of a path. -/
def linkLimit : Nat := 40

/-- Where steps lead to, if `jump` tells it of the steps from a link on. Each step has to be taken from
a directory; what the last one leads to need not exist, and is a link itself unless links are followed
to the end. -/
def pass (tree : Tree) (jump : Location → List Step → Except SystemError Location)
    (toTheEnd : Bool) : Location → List Step → Except SystemError Location
  | here, [] => .ok here
  | here, step :: rest =>
    match tree.get? here with
    | none => .error .notFound
    | some .directory =>
      match tree.get? (step.from here) with
      | some (.link target) =>
        if rest.isEmpty && !toTheEnd then .ok (step.from here)
        else jump (target.start here) (target.steps ++ rest)
      | _ => tree.pass jump toTheEnd (step.from here) rest
    | some _ => .error .notADirectory

/-- Where steps lead to through so many links at most. -/
def walk (tree : Tree) (toTheEnd : Bool) : Nat → Location → List Step → Except SystemError Location
  | 0 => tree.pass (fun _ _ => .error .tooManyLinks) toTheEnd
  | links + 1 => tree.pass (tree.walk toTheEnd links) toTheEnd

/-- Where a path begins. -/
def origin (tree : Tree) (path : Path) : Location :=
  path.start tree.workingDirectory

/-- Where a path leads to. The empty path leads nowhere. -/
def locate (tree : Tree) (path : Path) : Except SystemError Location :=
  if path.isEmpty then .error .notFound
  else tree.walk true linkLimit (tree.origin path) path.steps

/-! ## Requests -/

/-- The bytes of the file at a path. -/
def read (tree : Tree) (path : Path) : Except SystemError ByteArray := do
  match tree.get? (← tree.locate path) with
  | some (.file number) => .ok (tree.content number)
  | some (.device given) => .ok given
  | some .directory => .error .isADirectory
  | _ => .error .notFound

/-- Whether there is a directory at a path. -/
def isDirectory (tree : Tree) (path : Path) : Bool :=
  match (tree.locate path).map tree.get? with
  | .ok (some .directory) => true
  | _ => false

/-- The tree with the bytes in the file at a path. -/
def write (tree : Tree) (path : Path) (content : ByteArray) : Except SystemError Tree := do
  let location ← tree.locate path
  match tree.get? location with
  | none => .ok (tree.create location content)
  | some (.file number) => .ok (tree.fill number content)
  | some (.device _) => .ok tree
  | some _ => .error .isADirectory

/-- The steps of a path without the slashes that it ends in, which a directory that is to be created
may be written with. -/
def stepsToCreate (path : Path) : List Step :=
  Path.steps ⟨(path.bytes.reverse.dropWhile (· = slash)).reverse⟩

/-- The tree with a directory at a path. Only a name can be given to a new directory, and where a link
stands nothing is created. -/
def createDirectory (tree : Tree) (path : Path) : Except SystemError Tree :=
  if path.isEmpty then .error .notFound
  else do
    let steps := stepsToCreate path
    -- taking the last step makes sure that it is taken from a directory
    let location ← tree.walk false linkLimit (tree.origin path) steps
    match steps.getLast?, tree.get? location with
    | some (.down _), none => .ok (tree.put location .directory)
    | _, _ => .error .alreadyExists

/-- A request that changes the tree if it succeeds. -/
def change (f : Tree → Except SystemError Tree) : StateM Tree (Except SystemError Unit) := do
  match f (← get) with
  | .ok tree => set tree; return .ok ()
  | .error e => return .error e

instance : FileSystem (StateM Tree) where
  read path := return (← get).read path
  write path content := change (·.write path content)
  createDirectory path := change (·.createDirectory path)
  isDirectory path := return (← get).isDirectory path

/-! ## Listing -/

/-- The name of a location as seen from another one above it. -/
def below? : Location → Location → Option Location
  | [], location => some location
  | _ :: _, [] => none
  | top :: above, name :: rest => if top = name then below? above rest else none

/-- The paths of the files below the working directory, in ascending order. -/
def files (tree : Tree) : List Path :=
  (tree.entries.filterMap fun (location, entry) =>
    match entry with
    | .file _ => (below? tree.workingDirectory location).map fun names =>
      (⟨[slash].intercalate names⟩ : Path)
    | _ => none).mergeSort fun first second => decide (first.bytes ≤ second.bytes)

end Tree

end LiveMarkup.Disk
