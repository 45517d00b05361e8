import LiveMarkup.Virtual.Value

/-!
# Properties of a node

A node has at most one value under a name. The entries keep the order in which the names were first
set, but nothing that the library computes depends on it: whoever walks the properties takes them
sorted by name.

## Main results

* `get?_set_self`, `get?_set_ne` — a value that was set is there, and the others stay.
* `sorted_perm`, `sorted_ascending` — the sorted entries are the entries, by ascending name.
-/

namespace LiveMarkup

/-- The values of a node by name. -/
structure Properties (H : Type) where
  /-- The names with their values, in the order in which the names were first set. -/
  entries : List (String × Value H)
  /-- No name occurs twice. -/
  distinct : (entries.map Prod.fst).Nodup

namespace Properties

variable {H : Type}

/-- No properties. -/
def empty : Properties H := ⟨[], List.nodup_nil⟩

instance : Inhabited (Properties H) := ⟨empty⟩

/-- The entries with `value` under `name`, in the place of the old value if there was one. -/
def setEntry (name : String) (value : Value H) :
    List (String × Value H) → List (String × Value H)
  | [] => [(name, value)]
  | (other, old) :: rest =>
    if other = name then (name, value) :: rest else (other, old) :: setEntry name value rest

theorem mem_names_setEntry {name other : String} {value : Value H}
    {entries : List (String × Value H)} :
    other ∈ (setEntry name value entries).map Prod.fst ↔
      other = name ∨ other ∈ entries.map Prod.fst := by
  induction entries with
  | nil => simp [setEntry]
  | cons entry rest ih =>
    obtain ⟨first, old⟩ := entry
    unfold setEntry
    split
    · rename_i h; subst h; simp
    · rw [List.map_cons, List.mem_cons, ih]
      simp only [List.map_cons, List.mem_cons]
      constructor
      · rintro (h | h | h) <;> simp [h]
      · rintro (h | h | h) <;> simp [h]

theorem nodup_setEntry {name : String} {value : Value H} {entries : List (String × Value H)}
    (h : (entries.map Prod.fst).Nodup) : ((setEntry name value entries).map Prod.fst).Nodup := by
  induction entries with
  | nil => simp [setEntry]
  | cons entry rest ih =>
    obtain ⟨first, old⟩ := entry
    rw [List.map_cons, List.nodup_cons] at h
    unfold setEntry
    split
    · rename_i hname
      subst hname
      simpa using h
    · rename_i hname
      rw [List.map_cons, List.nodup_cons, mem_names_setEntry]
      refine ⟨?_, ih h.2⟩
      rintro (heq | hmem)
      · exact hname heq
      · exact h.1 hmem

/-- The properties with `value` under `name`. -/
def set (p : Properties H) (name : String) (value : Value H) : Properties H :=
  ⟨setEntry name value p.entries, nodup_setEntry p.distinct⟩

/-- Properties set one after the other; of two values under one name the later stays. -/
def ofList (entries : List (String × Value H)) : Properties H :=
  entries.foldl (fun p entry => p.set entry.1 entry.2) empty

/-- The value under `name` in a list of entries. -/
def lookUp (name : String) : List (String × Value H) → Option (Value H)
  | [] => none
  | (other, value) :: rest => if other = name then some value else lookUp name rest

/-- The value under `name`. -/
def get? (p : Properties H) (name : String) : Option (Value H) :=
  lookUp name p.entries

/-- The number of names with a value. -/
def size (p : Properties H) : Nat := p.entries.length

/-- Whether no name has a value. -/
def isEmpty (p : Properties H) : Bool := p.entries.isEmpty

/-- A value that was set is there. -/
@[simp] theorem get?_set_self (p : Properties H) (name : String) (value : Value H) :
    (p.set name value).get? name = some value := by
  simp only [get?, set]
  generalize p.entries = entries
  induction entries with
  | nil => simp [setEntry, lookUp]
  | cons entry rest ih =>
    obtain ⟨first, old⟩ := entry
    by_cases h : first = name <;> simp [setEntry, lookUp, h, ih]

/-- Setting a value leaves the other names alone. -/
theorem get?_set_ne (p : Properties H) {name other : String} (value : Value H)
    (h : other ≠ name) : (p.set name value).get? other = p.get? other := by
  simp only [get?, set]
  generalize p.entries = entries
  induction entries with
  | nil => simp [setEntry, lookUp, Ne.symm h]
  | cons entry rest ih =>
    obtain ⟨first, old⟩ := entry
    by_cases hf : first = name
    · subst hf
      simp [setEntry, lookUp, Ne.symm h]
    · simp [setEntry, lookUp, hf, ih]

/-! ## The properties in the order of their names -/

/-- An entry put before the first entry whose name is not smaller. -/
def insertByName (entry : String × Value H) :
    List (String × Value H) → List (String × Value H)
  | [] => [entry]
  | other :: rest =>
    if entry.1 ≤ other.1 then entry :: other :: rest else other :: insertByName entry rest

/-- Entries by ascending name. -/
def sortByName : List (String × Value H) → List (String × Value H)
  | [] => []
  | entry :: rest => insertByName entry (sortByName rest)

/-- The names with their values by ascending name, in the order of code points. -/
def sorted (p : Properties H) : List (String × Value H) :=
  sortByName p.entries

theorem insertByName_perm (entry : String × Value H) (entries : List (String × Value H)) :
    (insertByName entry entries).Perm (entry :: entries) := by
  induction entries with
  | nil => exact .refl _
  | cons other rest ih =>
    unfold insertByName
    split
    · exact .refl _
    · exact (ih.cons other).trans (.swap entry other rest)

/-- Sorting changes the order only. -/
theorem sorted_perm (p : Properties H) : p.sorted.Perm p.entries := by
  simp only [sorted]
  generalize p.entries = entries
  induction entries with
  | nil => exact .refl _
  | cons entry rest ih => exact (insertByName_perm entry _).trans (ih.cons entry)

theorem insertByName_pairwise {entry : String × Value H} {entries : List (String × Value H)}
    (h : entries.Pairwise fun a b => a.1 ≤ b.1) :
    (insertByName entry entries).Pairwise fun a b => a.1 ≤ b.1 := by
  induction entries with
  | nil => simp [insertByName]
  | cons other rest ih =>
    rw [List.pairwise_cons] at h
    unfold insertByName
    split
    · rename_i hle
      refine List.pairwise_cons.mpr ⟨fun b hb => ?_, List.pairwise_cons.mpr h⟩
      rcases List.mem_cons.mp hb with rfl | hb
      · exact hle
      · exact String.le_trans hle (h.1 b hb)
    · rename_i hle
      refine List.pairwise_cons.mpr ⟨fun b hb => ?_, ih h.2⟩
      rcases List.mem_cons.mp ((insertByName_perm entry rest).mem_iff.mp hb) with rfl | hb
      · exact (String.le_total b.1 other.1).resolve_left hle
      · exact h.1 b hb

/-- The sorted entries have ascending names. -/
theorem sorted_ascending (p : Properties H) : p.sorted.Pairwise fun a b => a.1 ≤ b.1 := by
  simp only [sorted]
  generalize p.entries = entries
  induction entries with
  | nil => exact .nil
  | cons entry rest ih => exact insertByName_pairwise ih

/-! ## Comparison -/

/-- Whether two nodes have the same names with equal values under them, in whatever order they were
set. -/
def equals [DecidableEq H] (p q : Properties H) : Bool :=
  p.size == q.size && p.entries.all fun (name, value) =>
    match q.get? name with
    | some other => value.equals other
    | none => false

end Properties

end LiveMarkup
