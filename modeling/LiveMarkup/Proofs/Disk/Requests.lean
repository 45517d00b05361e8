import LiveMarkup.Proofs.Disk.Ways

/-!
# What requests do to a tree of files

A write gives content to the file that its path leads to, which is a new one where
nothing was; a new directory stands where nothing was. Either way directories and
links stay what they were, so paths lead where they led before.

In a grounded tree every entry lies in a directory, and every file has content.
Requests keep a tree grounded. What can be read in it has a name: a path that ends
in a step up, or in no step at all, leads to a directory. And what was written is
read, but for a device, which keeps nothing.

## Main results

* `kept_write`, `kept_createDirectory` — requests keep directories and links.
* `Grounded.write`, `Grounded.createDirectory` — requests keep a tree grounded.
* `Grounded.read_of_write` — **what was written is read**.
* `Grounded.exists_fileName` — **the path of what can be read has a file name**.
-/

namespace LiveMarkup.Disk

namespace Tree

/-! ## Entries and contents -/

/-- The root is a directory, whatever the table says. -/
theorem ne_nil_of_get? {tree : Tree} {location : Location}
    (h : tree.get? location = none) : location ≠ [] := by
  rintro rfl
  cases h

@[simp] theorem get?_fill (tree : Tree) (number : Nat) (content : ByteArray)
    (location : Location) : (tree.fill number content).get? location = tree.get? location := rfl

theorem get?_create_self {tree : Tree} {location : Location} (content : ByteArray)
    (h : tree.get? location = none) :
    (tree.create location content).get? location = some (.file tree.contents.length) :=
  get?_put_self tree _ (ne_nil_of_get? h)

theorem get?_create_ne {tree : Tree} {location other : Location} (content : ByteArray)
    (h : other ≠ location) : (tree.create location content).get? other = tree.get? other :=
  get?_put_ne tree _ h

/-- A new file has its content. -/
theorem content_create_self (tree : Tree) (location : Location) (content : ByteArray) :
    (tree.create location content).content tree.contents.length = content := by
  simp [Tree.content, create]

/-- A new file leaves the content of the others. -/
theorem content_create_of_lt {tree : Tree} (location : Location) (content : ByteArray)
    {number : Nat} (h : number < tree.contents.length) :
    (tree.create location content).content number = tree.content number := by
  simp [Tree.content, create, List.getElem?_append_left h]

theorem content_fill_self {tree : Tree} {number : Nat} (content : ByteArray)
    (h : number < tree.contents.length) : (tree.fill number content).content number = content := by
  simp [Tree.content, fill, List.getElem?_set_self h]

theorem content_fill_ne (tree : Tree) {number other : Nat} (content : ByteArray)
    (h : other ≠ number) : (tree.fill number content).content other = tree.content other := by
  simp [Tree.content, fill, List.getElem?_set_ne h.symm]

/-! ## Requests -/

variable {tree after : Tree} {path : Path} {content : ByteArray}

/-- A write makes a file where the path leads, or gives the one there its content. A
device takes the bytes and nothing is changed. -/
theorem write_cases (h : tree.write path content = .ok after) :
    ∃ place, tree.locate path = .ok place ∧
      ((tree.get? place = none ∧ after = tree.create place content) ∨
        (∃ number, tree.get? place = some (.file number) ∧ after = tree.fill number content) ∨
        ∃ given, tree.get? place = some (.device given) ∧ after = tree) := by
  unfold write at h
  cases hPlace : tree.locate path with
  | error e =>
      rw [hPlace] at h
      cases h
  | ok place =>
      simp only [hPlace, bind, Except.bind] at h
      refine ⟨place, rfl, ?_⟩
      split at h
      · rename_i hEntry
        exact .inl ⟨hEntry, (Except.ok.inj h).symm⟩
      · rename_i number hEntry
        exact .inr (.inl ⟨number, hEntry, (Except.ok.inj h).symm⟩)
      · rename_i given hEntry
        exact .inr (.inr ⟨given, hEntry, (Except.ok.inj h).symm⟩)
      · cases h

/-- A directory is created where the path leads, if nothing is there. -/
theorem put_of_createDirectory (h : tree.createDirectory path = .ok after) :
    ∃ place, Leads tree true linkLimit (tree.origin path) (stepsToCreate path) place ∧
      (∃ name, (stepsToCreate path).getLast? = some (.down name)) ∧
      tree.get? place = none ∧ after = tree.put place .directory := by
  unfold createDirectory at h
  split at h
  · cases h
  · cases hPlace : tree.walk false linkLimit (tree.origin path) (stepsToCreate path) with
    | error e =>
        simp only [hPlace, bind, Except.bind] at h
        cases h
    | ok place =>
        simp only [hPlace, bind, Except.bind] at h
        split at h
        · rename_i name hLast hNone
          have hNoLink : ∀ target, tree.get? place ≠ some (.link target) := by
            intro target hLink
            cases hNone.symm.trans hLink
          exact ⟨place, (leads_of_walk hPlace).toTheEnd hNoLink, ⟨name, hLast⟩, hNone,
            (Except.ok.inj h).symm⟩
        · cases h

/-- What is read is the content of a file, or what a device gives. -/
theorem get?_of_read (h : tree.read path = .ok content) :
    ∃ place, tree.locate path = .ok place ∧
      ((∃ number, tree.get? place = some (.file number) ∧ tree.content number = content) ∨
        tree.get? place = some (.device content)) := by
  unfold read at h
  cases hPlace : tree.locate path with
  | error e =>
      rw [hPlace] at h
      cases h
  | ok place =>
      simp only [hPlace, bind, Except.bind] at h
      refine ⟨place, rfl, ?_⟩
      split at h
      · rename_i number hEntry
        exact .inl ⟨number, hEntry, Except.ok.inj h⟩
      · rename_i given hEntry
        exact .inr (by rw [hEntry, Except.ok.inj h])
      · cases h
      · cases h

theorem read_of_file {place : Location} {number : Nat} (hPlace : tree.locate path = .ok place)
    (hEntry : tree.get? place = some (.file number)) :
    tree.read path = .ok (tree.content number) := by
  simp only [read, hPlace, bind, Except.bind, hEntry]

theorem read_of_device {place : Location} {given : ByteArray}
    (hPlace : tree.locate path = .ok place) (hEntry : tree.get? place = some (.device given)) :
    tree.read path = .ok given := by
  simp only [read, hPlace, bind, Except.bind, hEntry]

/-! ## What requests keep -/

/-- An entry that is no link, put where nothing was, leaves directories and links. -/
theorem kept_put {place : Location} (entry : Entry) (hNone : tree.get? place = none)
    (hEntry : ∀ target, entry ≠ .link target) : Kept tree (tree.put place entry) := by
  refine Kept.of_entries rfl fun location => ?_
  by_cases hEq : location = place
  · rw [hEq, get?_put_self tree entry (ne_nil_of_get? hNone)]
    exact .inr ⟨hNone, fun target hLink => hEntry target (Option.some.inj hLink)⟩
  · exact .inl (get?_put_ne tree entry hEq)

theorem kept_create {place : Location} (hNone : tree.get? place = none) (content : ByteArray) :
    Kept tree (tree.create place content) :=
  have hPut := kept_put (.file tree.contents.length) hNone nofun
  ⟨rfl, hPut.directories, hPut.links⟩

theorem kept_fill (tree : Tree) (number : Nat) (content : ByteArray) :
    Kept tree (tree.fill number content) :=
  ⟨rfl, fun _ h => h, fun _ _ => Iff.rfl⟩

/-- **A write keeps directories and links.** -/
theorem kept_write (h : tree.write path content = .ok after) : Kept tree after := by
  obtain ⟨place, -, ⟨hNone, rfl⟩ | ⟨number, -, rfl⟩ | ⟨given, -, rfl⟩⟩ := write_cases h
  · exact kept_create hNone content
  · exact kept_fill tree number content
  · exact Kept.refl after

/-- **A new directory keeps directories and links.** -/
theorem kept_createDirectory (h : tree.createDirectory path = .ok after) : Kept tree after := by
  obtain ⟨place, -, -, hNone, rfl⟩ := put_of_createDirectory h
  exact kept_put _ hNone nofun

/-! ## Grounded trees -/

/-- Every entry lies in a directory, and every file has content. -/
structure Grounded (tree : Tree) : Prop where
  above : ∀ location, tree.get? location ≠ none → tree.get? location.dropLast = some .directory
  numbered : ∀ location number, tree.get? location = some (.file number) →
    number < tree.contents.length

theorem get?_nil (tree : Tree) : tree.get? [] = some .directory := rfl

/-- An entry of a table that is grounded in a tree: what it lies in is a directory, and
if it is a file it has content. -/
def groundsEntry (tree : Tree) (location : Location) (entry : Entry) : Bool :=
  (match tree.get? location.dropLast with
    | some .directory => true
    | _ => false) &&
  match entry with
  | .file number => decide (number < tree.contents.length)
  | _ => true

theorem mem_of_lookUp {location : Location} {entry : Entry} {entries : List (Location × Entry)}
    (h : lookUp location entries = some entry) : (location, entry) ∈ entries := by
  induction entries with
  | nil => cases h
  | cons first rest ih =>
      obtain ⟨other, old⟩ := first
      rw [lookUp] at h
      split at h
      · rename_i hEq
        rw [hEq, Option.some.inj h]
        exact List.mem_cons_self
      · exact List.mem_cons_of_mem _ (ih h)

/-- **A tree is grounded if every entry of its table is.** -/
theorem grounded_of_all
    (h : tree.entries.all (fun entry => tree.groundsEntry entry.1 entry.2) = true) :
    tree.Grounded := by
  have hEntry : ∀ location entry, location ≠ [] → tree.get? location = some entry →
      tree.groundsEntry location entry = true := by
    intro location entry hNe hGet
    rw [get?, if_neg hNe] at hGet
    exact List.all_eq_true.mp h _ (mem_of_lookUp hGet)
  constructor
  · intro location hSome
    by_cases hNil : location = []
    · rw [hNil]
      rfl
    · obtain ⟨entry, hGet⟩ := Option.ne_none_iff_exists'.mp hSome
      have hAbove := (Bool.and_eq_true_iff.mp (hEntry location entry hNil hGet)).1
      split at hAbove
      · assumption
      · cases hAbove
  · intro location number hGet
    by_cases hNil : location = []
    · rw [hNil, get?_nil] at hGet
      cases hGet
    · exact of_decide_eq_true (Bool.and_eq_true_iff.mp (hEntry location _ hNil hGet)).2

namespace Grounded

/-- A directory lies in a directory, or is the root. -/
theorem above_directory (hGrounded : tree.Grounded) {location : Location}
    (hDirectory : tree.get? location = some .directory) :
    tree.get? location.dropLast = some .directory := by
  apply hGrounded.above
  rw [hDirectory]
  exact Option.some_ne_none _

/-- A step from a directory leads to a place in a directory. -/
theorem above_from (hGrounded : tree.Grounded) {here : Location}
    (hDirectory : tree.get? here = some .directory) (step : Step) :
    tree.get? (step.from here).dropLast = some .directory := by
  cases step with
  | stay => exact hGrounded.above_directory hDirectory
  | up => exact hGrounded.above_directory (hGrounded.above_directory hDirectory)
  | down name =>
      show tree.get? (here ++ [name]).dropLast = some .directory
      rw [List.dropLast_concat]
      exact hDirectory

/-- A step from a directory to something else leads down. -/
theorem down_of_from (hGrounded : tree.Grounded) {here : Location}
    (hDirectory : tree.get? here = some .directory) {step : Step}
    (h : tree.get? (step.from here) ≠ some .directory) : ∃ name, step = .down name := by
  cases step with
  | stay => exact absurd hDirectory h
  | up => exact absurd (hGrounded.above_directory hDirectory) h
  | down name => exact ⟨name, rfl⟩

variable {whole : Bool} {links : Nat} {here place : Location} {steps : List Step}

/-- Where a way leads to is a place in a directory. -/
theorem above_leads (hGrounded : tree.Grounded) (h : Leads tree whole links here steps place)
    (hSteps : steps ≠ []) : tree.get? place.dropLast = some .directory := by
  induction h with
  | here => exact absurd rfl hSteps
  | @step links here place step rest hDirectory _ hRest ih =>
      cases rest with
      | nil =>
          cases hRest with
          | here => exact hGrounded.above_from hDirectory step
      | cons next others => exact ih (List.cons_ne_nil next others)
  | link _ _ _ _ ih =>
      exact ih fun hNil => Path.steps_ne_nil _ (List.append_eq_nil_iff.mp hNil).1
  | @last links here step _ hDirectory => exact hGrounded.above_from hDirectory step

/-- The last step to what is no directory leads down, also where it leads to a link. -/
theorem last_of_leads (hGrounded : tree.Grounded) (h : Leads tree whole links here steps place)
    (hSteps : steps ≠ []) (hPlace : tree.get? place ≠ some .directory) :
    ∃ name, steps.getLast? = some (.down name) := by
  have hDown : ∀ {here : Location} {step : Step}, tree.get? here = some .directory →
      tree.get? (step.from here) ≠ some .directory →
      ∃ name, [step].getLast? = some (.down name) := by
    intro here step hDirectory hOther
    obtain ⟨name, rfl⟩ := hGrounded.down_of_from hDirectory hOther
    exact ⟨name, rfl⟩
  have hNotDirectory : ∀ {location : Location} {target : Path},
      tree.get? location = some (.link target) → tree.get? location ≠ some .directory := by
    intro location target hLink hDirectory
    cases hLink.symm.trans hDirectory
  induction h with
  | here => exact absurd rfl hSteps
  | @step links here place step rest hDirectory _ hRest ih =>
      cases rest with
      | nil =>
          cases hRest with
          | here => exact hDown hDirectory hPlace
      | cons next others =>
          rw [List.getLast?_cons_cons]
          exact ih (List.cons_ne_nil next others) hPlace
  | @link links here place step rest target hDirectory hLink _ _ ih =>
      cases rest with
      | nil => exact hDown hDirectory (hNotDirectory hLink)
      | cons next others =>
          have hLast := ih (fun hNil => List.cons_ne_nil _ _ (List.append_eq_nil_iff.mp hNil).2)
            hPlace
          rw [List.getLast?_append, List.getLast?_cons, Option.some_or] at hLast
          rw [List.getLast?_cons_cons, List.getLast?_cons]
          exact hLast
  | last hDirectory hLink => exact hDown hDirectory (hNotDirectory hLink)

/-- An entry in a directory keeps a tree grounded, if nothing was in its place and a
file has content. -/
theorem put (hGrounded : tree.Grounded) {place : Location} (entry : Entry)
    (hNone : tree.get? place = none) (hEntry : ∀ target, entry ≠ .link target)
    (hAbove : tree.get? place.dropLast = some .directory) {contents : List ByteArray}
    (hLength : tree.contents.length ≤ contents.length)
    (hNumber : ∀ number, entry = .file number → number < contents.length) :
    Grounded { tree.put place entry with contents := contents } := by
  have hGet : ∀ location, Tree.get? { tree.put place entry with contents := contents } location =
      (tree.put place entry).get? location := fun _ => rfl
  have hSelf := get?_put_self tree entry (ne_nil_of_get? hNone)
  constructor
  · intro location hSome
    rw [hGet] at hSome ⊢
    apply (kept_put entry hNone hEntry).directories
    by_cases hEq : location = place
    · rw [hEq]
      exact hAbove
    · rw [get?_put_ne tree entry hEq] at hSome
      exact hGrounded.above location hSome
  · intro location number hFile
    rw [hGet] at hFile
    by_cases hEq : location = place
    · rw [hEq, hSelf] at hFile
      exact hNumber number (Option.some.inj hFile)
    · rw [get?_put_ne tree entry hEq] at hFile
      exact Nat.lt_of_lt_of_le (hGrounded.numbered location number hFile) hLength

theorem write (hGrounded : tree.Grounded) (h : tree.write path content = .ok after) :
    after.Grounded := by
  obtain ⟨place, hPlace, ⟨hNone, rfl⟩ | ⟨number, -, rfl⟩ | ⟨given, -, rfl⟩⟩ := write_cases h
  · apply hGrounded.put (.file tree.contents.length) hNone nofun
    · exact hGrounded.above_leads (locate_eq_ok_iff.mp hPlace).2 (Path.steps_ne_nil path)
    · simp
    · rintro number ⟨⟩
      simp
  · refine ⟨hGrounded.above, fun location other hFile => ?_⟩
    have hLt := hGrounded.numbered location other hFile
    simpa [fill] using hLt
  · exact hGrounded

theorem createDirectory (hGrounded : tree.Grounded) (h : tree.createDirectory path = .ok after) :
    after.Grounded := by
  obtain ⟨place, hLeads, ⟨name, hLast⟩, hNone, rfl⟩ := put_of_createDirectory h
  have hSteps : stepsToCreate path ≠ [] := by
    intro hNil
    rw [hNil] at hLast
    cases hLast
  exact hGrounded.put .directory hNone nofun (hGrounded.above_leads hLeads hSteps) Nat.le.refl nofun

end Grounded

/-! ## What was written -/

/-- The path leads to a device. -/
def ToDevice (tree : Tree) (path : Path) : Prop :=
  ∃ place given, tree.locate path = .ok place ∧ tree.get? place = some (.device given)

/-- **What was written is read**, unless a device took it. -/
theorem Grounded.read_of_write (hGrounded : tree.Grounded)
    (h : tree.write path content = .ok after) :
    after.read path = .ok content ∨ after.ToDevice path := by
  obtain ⟨place, hPlace, ⟨hNone, rfl⟩ | ⟨number, hFile, rfl⟩ | ⟨given, hDevice, rfl⟩⟩ :=
    write_cases h
  · left
    rw [read_of_file ((kept_create hNone content).locate hPlace) (get?_create_self content hNone),
      content_create_self]
  · left
    rw [read_of_file ((kept_fill tree number content).locate hPlace) hFile,
      content_fill_self content (hGrounded.numbered place number hFile)]
  · exact .inr ⟨place, given, hPlace, hDevice⟩

end Tree

namespace Path

/-- A path whose last step leads down has a file name. -/
theorem fileName?_of_last {path : Path} {name : Name}
    (h : (steps path).getLast? = some (.down name)) : fileName? path = some name := by
  obtain ⟨front, hSteps⟩ := List.getLast?_eq_some_iff.mp h
  have hKept : ((steps path).filter (· ≠ .stay)).getLast? = some (.down name) := by
    rw [hSteps, List.filter_append]
    exact List.getLast?_concat
  have hComponents : (components path).getLast? = some (.down name) := by
    unfold components
    simp only
    split
    · rw [List.getLast?_cons, hKept]
      rfl
    · exact hKept
  rw [fileName?, hComponents]

end Path

/-- **The path of what can be read has a file name.** -/
theorem Tree.Grounded.exists_fileName {tree : Tree} (hGrounded : tree.Grounded) {path : Path}
    {content : ByteArray} (h : tree.read path = .ok content) :
    ∃ name, path.fileName? = some name := by
  obtain ⟨place, hPlace, hEntry⟩ := get?_of_read h
  have hOther : tree.get? place ≠ some .directory := by
    rcases hEntry with ⟨number, hFile, -⟩ | hDevice
    · rw [hFile]
      nofun
    · rw [hDevice]
      nofun
  obtain ⟨name, hLast⟩ := hGrounded.last_of_leads (locate_eq_ok_iff.mp hPlace).2
    (Path.steps_ne_nil path) hOther
  exact ⟨name, Path.fileName?_of_last hLast⟩

end LiveMarkup.Disk
