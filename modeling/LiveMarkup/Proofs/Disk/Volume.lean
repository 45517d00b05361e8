import LiveMarkup.Proofs.Disk.Requests

/-!
# Volumes

A volume is a grounded tree of files on a system that may refuse any request: for
want of a permission, or because the disk fails. A request that is refused does
nothing. Where nothing is refused, requests do what they do to the tree.

Creating the directories on a path makes a tree grow: entries stay as they are, and
only where there was nothing is there a directory afterwards, on the way that the
path takes through all links. That holds whether or not every directory could be
created; if one could not, it is the last request that failed.

## Main results

* `serve_cases` — a request fails and does nothing, or does what it does to the tree.
* `meets_createDirectories` — **creating directories adds directories, all of them on
  the way of the path, and does nothing else**, and it fails for the reason for which
  one of them could not be created.
* `Grown.write` — what a write to a tree that has grown adds to that.
* `Wrote.read` — **what could be read before is read afterwards**, but for the file
  that was written.
-/

namespace LiveMarkup.Disk

open Step (moves)

/-- What can be asked of a file system. -/
inductive Request where
  | read (path : Path)
  | write (path : Path) (content : ByteArray)
  | createDirectory (path : Path)
  | isDirectory (path : Path)

namespace Tree

/-- The tree after a request, if the request can be served. -/
def serve (tree : Tree) : Request → Except SystemError Tree
  | .read path => (tree.read path).map fun _ => tree
  | .write path content => tree.write path content
  | .createDirectory path => tree.createDirectory path
  | .isDirectory _ => .ok tree

theorem Grounded.serve {tree after : Tree} (hGrounded : tree.Grounded) {request : Request}
    (h : tree.serve request = .ok after) : after.Grounded := by
  cases request with
  | read path =>
      rw [Tree.serve] at h
      cases hRead : tree.read path with
      | error e =>
          rw [hRead] at h
          cases h
      | ok content =>
          rw [hRead] at h
          exact Except.ok.inj h ▸ hGrounded
  | write path content => exact hGrounded.write h
  | createDirectory path => exact hGrounded.createDirectory h
  | isDirectory path => exact Except.ok.inj h ▸ hGrounded

end Tree

/-- A tree of files on a system that may refuse requests. -/
structure Volume where
  tree : Tree
  grounded : tree.Grounded
  /-- Why a request to a tree is refused, if it is. -/
  refusal : Tree → Request → Option SystemError

namespace Volume

/-- A volume with a tree whose entries are grounded, on a system that refuses nothing. -/
def ofTree (tree : Tree)
    (h : tree.entries.all (fun entry => tree.groundsEntry entry.1 entry.2) = true) : Volume where
  tree := tree
  grounded := Tree.grounded_of_all h
  refusal _ _ := none

/-- A volume with a file in its root and nothing else, whose system refuses nothing. -/
def ofFile (name : Name) (content : ByteArray) : Volume :=
  ofTree ⟨[([name], .file 0)], [content], []⟩ rfl

/-- Why a request fails: the system refuses it, or the tree cannot serve it. -/
def failure? (volume : Volume) (request : Request) : Option SystemError :=
  match volume.refusal volume.tree request with
  | some e => some e
  | none =>
    match volume.tree.serve request with
    | .ok _ => none
    | .error e => some e

/-- A request that changes the tree if it succeeds. -/
def serve (request : Request) : StateM Volume (Except SystemError Unit) := fun volume =>
  match volume.refusal volume.tree request with
  | some e => (.error e, volume)
  | none =>
    match h : volume.tree.serve request with
    | .ok tree => (.ok (), { volume with tree := tree, grounded := volume.grounded.serve h })
    | .error e => (.error e, volume)

/-- What is read at a path, unless the system refuses to. -/
def read (volume : Volume) (path : Path) : Except SystemError ByteArray :=
  match volume.refusal volume.tree (.read path) with
  | some e => .error e
  | none => volume.tree.read path

/-- Whether the system admits that there is a directory at a path. -/
def isDirectory (volume : Volume) (path : Path) : Bool :=
  match volume.refusal volume.tree (.isDirectory path) with
  | some _ => false
  | none => volume.tree.isDirectory path

instance : FileSystem (StateM Volume) where
  read path := return (← get).read path
  write path content := serve (.write path content)
  createDirectory path := serve (.createDirectory path)
  isDirectory path := return (← get).isDirectory path

/-! ## What requests do -/

/-- A request fails and does nothing, or it does what it does to the tree. -/
theorem serve_cases (request : Request) (volume : Volume) :
    (∃ e, (serve request).run volume = (.error e, volume) ∧ volume.failure? request = some e) ∨
      ∃ after, (serve request).run volume = (.ok (), after) ∧ after.refusal = volume.refusal ∧
        volume.tree.serve request = .ok after.tree := by
  show (∃ e, serve request volume = _ ∧ _) ∨ ∃ after, serve request volume = _ ∧ _
  unfold serve failure?
  cases volume.refusal volume.tree request with
  | some e => exact .inl ⟨e, rfl, rfl⟩
  | none =>
      simp only
      split
      · rename_i tree hTree
        exact .inr ⟨_, rfl, rfl, hTree⟩
      · rename_i e hTree
        exact .inl ⟨e, rfl, by rw [hTree]⟩

/-- What is read is what the tree has. -/
theorem read_tree_of_read {volume : Volume} {path : Path} {content : ByteArray}
    (h : volume.read path = .ok content) : volume.tree.read path = .ok content := by
  unfold read at h
  split at h
  · cases h
  · exact h

/-! ## What programs do -/

variable {α β : Type} {pre : Volume → Prop} {post : α → Volume → Prop}

theorem run_bind (program : StateM Volume α) (next : α → StateM Volume β) (volume : Volume) :
    (program >>= next).run volume =
      (next (program.run volume).1).run (program.run volume).2 := rfl

/-- From a volume with one property a program gets to a result and a volume with another
one. -/
def Meets (pre : Volume → Prop) (program : StateM Volume α) (post : α → Volume → Prop) : Prop :=
  ∀ volume, pre volume → post (program.run volume).1 (program.run volume).2

theorem Meets.weaken {program : StateM Volume α} {stronger : Volume → Prop}
    (hProgram : Meets pre program post) (h : ∀ volume, stronger volume → pre volume) :
    Meets stronger program post :=
  fun volume hStronger => hProgram volume (h volume hStronger)

theorem meets_pure {a : α} (h : ∀ volume, pre volume → post a volume) :
    Meets pre (pure a) post := h

theorem meets_bind {program : StateM Volume α} {next : α → StateM Volume β}
    {middle : α → Volume → Prop} {post : β → Volume → Prop} (hProgram : Meets pre program middle)
    (hNext : ∀ a, Meets (middle a) (next a) post) : Meets pre (program >>= next) post :=
  fun volume h => hNext _ _ (hProgram volume h)

end Volume

/-! ## Growth -/

namespace Tree

/-- The way of a path leads through a location. -/
def LeadsThrough (tree : Tree) (path : Path) (location : Location) : Prop :=
  ∃ front, front <+: path.steps ∧ Leads tree true linkLimit (tree.origin path) front location

theorem Kept.leadsThrough {before after : Tree} (h : Kept before after) {path : Path}
    {location : Location} (hThrough : before.LeadsThrough path location) :
    after.LeadsThrough path location := by
  obtain ⟨front, hFront, hLeads⟩ := hThrough
  refine ⟨front, hFront, ?_⟩
  rw [h.origin]
  exact h.leads hLeads

/-- A location has the entry that it had, or there was nothing and there is a directory
on the way of the path. -/
def SameOrNew (path : Path) (before after : Tree) (location : Location) : Prop :=
  after.get? location = before.get? location ∨
    before.get? location = none ∧ after.get? location = some .directory ∧
      after.LeadsThrough path location

/-- What has become of a location stays so where its entry does, and paths lead where they
led. -/
theorem SameOrNew.of_eq {path : Path} {before middle after : Tree} {location : Location}
    (h : SameOrNew path before middle location) (hKept : Kept middle after)
    (hEq : after.get? location = middle.get? location) :
    SameOrNew path before after location := by
  rcases h with hSame | ⟨hNone, hNew, hThrough⟩
  · exact .inl (hEq.trans hSame)
  · exact .inr ⟨hNone, hEq.trans hNew, hKept.leadsThrough hThrough⟩

/-- One tree comes from another by new directories on the way of a path. -/
structure Grown (path : Path) (before after : Tree) : Prop where
  workingDirectory : after.workingDirectory = before.workingDirectory
  contents : after.contents = before.contents
  entries : ∀ location, SameOrNew path before after location

namespace Grown

variable {path : Path} {before after third : Tree}

theorem refl (path : Path) (tree : Tree) : Grown path tree tree :=
  ⟨rfl, rfl, fun _ => .inl rfl⟩

theorem kept (h : Grown path before after) : Kept before after := by
  refine Kept.of_entries h.workingDirectory fun location => ?_
  rcases h.entries location with hSame | ⟨hNone, hNew, -⟩
  · exact .inl hSame
  · rw [hNew]
    exact .inr ⟨hNone, nofun⟩

theorem content (h : Grown path before after) (number : Nat) :
    after.content number = before.content number := by
  rw [Tree.content, Tree.content, h.contents]

/-- What is no directory was there before. -/
theorem get?_of_ne_directory (h : Grown path before after) {location : Location} {entry : Entry}
    (hEntry : after.get? location = some entry) (hNe : entry ≠ .directory) :
    before.get? location = some entry := by
  rcases h.entries location with hSame | ⟨-, hNew, -⟩
  · rw [← hSame, hEntry]
  · exact absurd (Option.some.inj (hEntry.symm.trans hNew)) hNe

theorem get?_of_none (h : Grown path before after) {location : Location}
    (hNone : after.get? location = none) : before.get? location = none := by
  rcases h.entries location with hSame | ⟨hOld, -⟩
  · rw [← hSame, hNone]
  · exact hOld

theorem trans (h : Grown path before after) (h' : Grown path after third) :
    Grown path before third where
  workingDirectory := h'.workingDirectory.trans h.workingDirectory
  contents := h'.contents.trans h.contents
  entries location := by
    rcases h'.entries location with hSame | ⟨hNone, hNew, hThrough⟩
    · exact (h.entries location).of_eq h'.kept hSame
    · rcases h.entries location with hSame | ⟨-, hOld, -⟩
      · exact .inr ⟨hSame.symm.trans hNone, hNew, hThrough⟩
      · cases hNone.symm.trans hOld

end Grown

/-- **A new directory is on the way of the path**, if its own path is that path or one of
those above it. -/
theorem grown_of_createDirectory {tree after : Tree} {path directory : Path}
    (hMem : directory ∈ path :: path.ancestors)
    (h : tree.createDirectory directory = .ok after) : Grown path tree after := by
  have hKept := kept_createDirectory h
  obtain ⟨place, hLeads, -, hNone, rfl⟩ := put_of_createDirectory h
  have hPlace := get?_put_self tree .directory (ne_nil_of_get? hNone)
  obtain ⟨hAbsolute, passed, hPassed, hMoves⟩ : directory.isAbsolute = path.isAbsolute ∧
      ∃ passed, passed <+: path.steps ∧ moves passed = moves directory.steps := by
    rcases List.mem_cons.mp hMem with rfl | hAbove
    · exact ⟨rfl, _, List.prefix_rfl, rfl⟩
    · exact Path.exists_front_of_mem_ancestors hAbove
  have hOrigin : tree.origin directory = tree.origin path := by
    rw [Tree.origin, Tree.origin, Path.start, Path.start, hAbsolute]
  have hThrough : (tree.put place .directory).LeadsThrough path place := by
    refine ⟨passed, hPassed, ?_⟩
    rw [hKept.origin, ← hOrigin]
    exact (hKept.leads hLeads).of_moves hPlace ((Path.moves_stepsToCreate directory).trans
      hMoves.symm)
  refine ⟨rfl, rfl, fun location => ?_⟩
  by_cases hEq : location = place
  · rw [hEq]
    exact .inr ⟨hNone, hPlace, hThrough⟩
  · exact .inl (get?_put_ne tree _ hEq)

end Tree

namespace Volume

/-- A directory on the way of the path, or at its end, could not be created, and the system
tells of none there. -/
def CannotCreate (volume : Volume) (path : Path) (e : SystemError) : Prop :=
  ∃ directory ∈ path :: path.ancestors,
    volume.failure? (.createDirectory directory) = some e ∧ volume.isDirectory directory = false

/-- One volume comes from another by new directories on the way of a path. -/
def Grows (path : Path) (before after : Volume) : Prop :=
  after.refusal = before.refusal ∧ Tree.Grown path before.tree after.tree

/-- What comes of creating the directories on the way of a path: some new ones, and if the
result is an error, one that could not be created. -/
def Extended (path : Path) (before : Volume) (result : Except SystemError Unit)
    (after : Volume) : Prop :=
  Grows path before after ∧ ∀ e, result = .error e → after.CannotCreate path e

variable {start : Volume} {path directory : Path}

theorem meets_createDirectory (hMem : directory ∈ path :: path.ancestors) :
    Meets (Grows path start) (FileSystem.createDirectory directory) fun result after =>
      Grows path start after ∧
        ∀ e, result = .error e → after.failure? (.createDirectory directory) = some e := by
  have hServe : (FileSystem.createDirectory directory : StateM Volume _) =
      serve (.createDirectory directory) := rfl
  rw [hServe]
  intro volume hGrows
  rcases serve_cases (.createDirectory directory) volume with
    ⟨e, hRun, hFailure⟩ | ⟨after, hRun, hRefusal, hTree⟩
  · rw [hRun]
    refine ⟨hGrows, ?_⟩
    rintro _ ⟨⟩
    exact hFailure
  · rw [hRun]
    exact ⟨⟨hRefusal.trans hGrows.1,
      hGrows.2.trans (Tree.grown_of_createDirectory hMem hTree)⟩, nofun⟩

/-- A directory that could not be created is tolerated if it is there. -/
theorem meets_tolerate (hMem : directory ∈ path :: path.ancestors) (e : SystemError) :
    Meets (fun volume => Grows path start volume ∧
        volume.failure? (.createDirectory directory) = some e)
      (FileSystem.tolerate directory e) (Extended path start) := by
  have hAsk : Meets (fun volume => Grows path start volume ∧
        volume.failure? (.createDirectory directory) = some e)
      (FileSystem.isDirectory directory) fun there volume =>
        (Grows path start volume ∧ volume.failure? (.createDirectory directory) = some e) ∧
          volume.isDirectory directory = there :=
    fun volume h => ⟨h, rfl⟩
  refine meets_bind hAsk fun there => ?_
  cases there with
  | true => exact meets_pure fun volume h => ⟨h.1.1, nofun⟩
  | false =>
      apply meets_pure
      rintro volume ⟨⟨hGrows, hFailure⟩, hThere⟩
      refine ⟨hGrows, ?_⟩
      rintro _ ⟨⟩
      exact ⟨directory, hMem, hFailure, hThere⟩

/-- Creating the directories of a list creates no other ones. -/
theorem meets_createFrom {directories : List Path}
    (hMem : ∀ directory ∈ directories, directory ∈ path :: path.ancestors) :
    Meets (Grows path start) (FileSystem.createFrom directories) (Extended path start) := by
  induction directories with
  | nil => exact meets_pure fun volume h => ⟨h, nofun⟩
  | cons directory above ih =>
      have hThis := hMem directory List.mem_cons_self
      have hAbove := ih fun other hOther => hMem other (List.mem_cons_of_mem directory hOther)
      have hTolerate : ∀ e, Meets (fun volume => Grows path start volume ∧
          ∀ cause, Except.error e = (.error cause : Except SystemError Unit) →
            volume.failure? (.createDirectory directory) = some cause)
          (FileSystem.tolerate directory e) (Extended path start) :=
        fun e => (meets_tolerate hThis e).weaken fun volume h => ⟨h.1, h.2 e rfl⟩
      refine meets_bind (meets_createDirectory hThis) fun first => ?_
      split
      · exact meets_pure fun volume h => ⟨h.1, nofun⟩
      · -- the directories above are created, and this one is tried once more
        refine meets_bind (hAbove.weaken fun volume h => h.1) fun second => ?_
        split
        · exact meets_pure fun volume h => h
        · refine meets_bind ((meets_createDirectory hThis).weaken fun volume h => h.1)
            fun third => ?_
          split
          · exact meets_pure fun volume h => ⟨h.1, nofun⟩
          · exact hTolerate _
      · exact hTolerate _

/-- **Creating directories adds directories, all of them on the way of the path, and
does nothing else**, whether it succeeds or fails. It fails because one of them could
not be created and is not there. -/
theorem meets_createDirectories (path : Path) (start : Volume) :
    Meets (Grows path start) (FileSystem.createDirectories path) (Extended path start) := by
  unfold FileSystem.createDirectories
  split
  · exact meets_pure fun volume h => ⟨h, nofun⟩
  · exact meets_createFrom fun directory hDirectory => hDirectory

end Volume

/-! ## Writes -/

namespace Tree

/-- Two paths lead to one file. -/
def OneFile (tree : Tree) (path other : Path) : Prop :=
  ∃ place otherPlace number, tree.locate path = .ok place ∧
    tree.locate other = .ok otherPlace ∧ tree.get? place = some (.file number) ∧
    tree.get? otherPlace = some (.file number)

/-- One tree comes from another by bytes for what stands at a place, and by new
directories on the way of a path. A file at the place is a new one if nothing was there;
a device is the one that was there. -/
structure Wrote (path : Path) (place : Location) (before after : Tree) : Prop where
  workingDirectory : after.workingDirectory = before.workingDirectory
  taker : (∃ number, after.get? place = some (.file number)) ∨
    ∃ given, after.get? place = some (.device given)
  entry : after.get? place = before.get? place ∨
    before.get? place = none ∧ after.get? place = some (.file before.contents.length)
  others : ∀ location, location ≠ place → SameOrNew path before after location
  contents : ∀ number, number < before.contents.length →
    after.get? place ≠ some (.file number) → after.content number = before.content number

variable {path output : Path} {place : Location} {before grown after : Tree}

/-- **A write to a tree that has grown** gives the bytes to what its path leads to. -/
theorem Grown.write (h : Grown path before grown) {content : ByteArray}
    (hWrite : grown.write output content = .ok after) :
    ∃ place, after.locate output = .ok place ∧ Wrote path place before after := by
  have hKept := kept_write hWrite
  obtain ⟨place, hPlace, hCases⟩ := write_cases hWrite
  refine ⟨place, hKept.locate hPlace, ?_⟩
  rcases hCases with ⟨hNone, rfl⟩ | ⟨number, hFile, rfl⟩ | ⟨given, hDevice, rfl⟩
  · have hNew := get?_create_self content hNone
    refine ⟨h.workingDirectory, .inl ⟨_, hNew⟩, .inr ⟨h.get?_of_none hNone, ?_⟩, ?_, ?_⟩
    · rw [hNew, h.contents]
    · exact fun location hNe => (h.entries location).of_eq hKept (get?_create_ne content hNe)
    · intro number hLt _
      rw [← h.contents] at hLt
      rw [content_create_of_lt place content hLt, h.content]
  · have hOld := h.get?_of_ne_directory hFile (by rintro ⟨⟩)
    refine ⟨h.workingDirectory, .inl ⟨number, hFile⟩, .inl (hFile.trans hOld.symm), ?_, ?_⟩
    · exact fun location _ => (h.entries location).of_eq hKept rfl
    · intro other _ hOther
      have hNe : other ≠ number := by
        rintro rfl
        exact hOther hFile
      rw [content_fill_ne grown content hNe, h.content]
  · have hOld := h.get?_of_ne_directory hDevice (by rintro ⟨⟩)
    exact ⟨h.workingDirectory, .inr ⟨given, hDevice⟩, .inl (hDevice.trans hOld.symm),
      fun location _ => h.entries location, fun number _ _ => h.content number⟩

namespace Wrote

/-- Whatever was there is there, and no link is new. -/
theorem entries (h : Wrote path place before after) (location : Location) :
    after.get? location = before.get? location ∨
      before.get? location = none ∧ ∀ target, after.get? location ≠ some (.link target) := by
  by_cases hEq : location = place
  · rw [hEq]
    rcases h.entry with hSame | ⟨hNone, hNew⟩
    · exact .inl hSame
    · rw [hNew]
      exact .inr ⟨hNone, nofun⟩
  · rcases h.others location hEq with hSame | ⟨hNone, hNew, -⟩
    · exact .inl hSame
    · rw [hNew]
      exact .inr ⟨hNone, nofun⟩

theorem kept (h : Wrote path place before after) : Kept before after :=
  .of_entries h.workingDirectory h.entries

theorem get?_of_some (h : Wrote path place before after) {location : Location} {entry : Entry}
    (hEntry : before.get? location = some entry) : after.get? location = some entry := by
  rcases h.entries location with hSame | ⟨hNone, -⟩
  · rw [hSame, hEntry]
  · cases hNone.symm.trans hEntry

/-- **What could be read before is read afterwards**, but for paths to the file that was
written. -/
theorem read (h : Wrote path place before after) (hGrounded : before.Grounded)
    (hPlace : after.locate output = .ok place) {other : Path} {content : ByteArray}
    (hRead : before.read other = .ok content) :
    after.read other = .ok content ∨ after.OneFile other output := by
  obtain ⟨otherPlace, hOther, ⟨number, hFile, rfl⟩ | hDevice⟩ := get?_of_read hRead
  · have hLocate := h.kept.locate hOther
    have hThere := h.get?_of_some hFile
    by_cases hWritten : after.get? place = some (.file number)
    · exact .inr ⟨otherPlace, place, number, hLocate, hPlace, hThere, hWritten⟩
    · left
      rw [read_of_file hLocate hThere,
        h.contents number (hGrounded.numbered otherPlace number hFile) hWritten]
  · exact .inl (read_of_device (h.kept.locate hOther) (h.get?_of_some hDevice))

end Wrote

end Tree

end LiveMarkup.Disk
