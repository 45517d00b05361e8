import LiveMarkup.Virtual.Properties

/-!
# Properties over properties

A live node takes properties over in two ways. On its construction the handlers
among them are attached and the other values are set; later on the other values
are set over those that it has. `Properties.handlers` and `Properties.overlay`
are these two.

## Main results

* `get?_overlay` — a value that is no handler lies over the one below.
* `handlers_ascending`, `mem_handlers` — the handlers are those among the
  properties, by ascending name, none of them twice.
* `filter_handlers` — under a name there is the one handler or none.
-/

namespace LiveMarkup

variable {H : Type}

namespace Properties

/-- The properties with those of `fresh` set over them by ascending name,
handlers left out. -/
def overlay (old fresh : Properties H) : Properties H :=
  fresh.sorted.foldl
    (fun kept entry => if entry.2.isHandler then kept else kept.set entry.1 entry.2) old

/-- The handlers among entries, with the names that they stand under. -/
def handlersOf (entries : List (String × Value H)) : List (String × H) :=
  entries.filterMap fun entry => entry.2.asHandler?.map fun handler => (entry.1, handler)

/-- The handlers by ascending name. -/
def handlers (properties : Properties H) : List (String × H) :=
  handlersOf properties.sorted

/-! ## Looking up -/

theorem lookUp_eq_none {name : String} {entries : List (String × Value H)}
    (h : name ∉ entries.map Prod.fst) : lookUp name entries = none := by
  induction entries with
  | nil => rfl
  | cons entry rest ih =>
      rw [List.map_cons, List.mem_cons, not_or] at h
      rw [lookUp, if_neg (Ne.symm h.1), ih h.2]

/-- Where no name occurs twice, the value under a name is that of its entry. -/
theorem lookUp_eq_some_iff {name : String} {value : Value H}
    {entries : List (String × Value H)} (hNodup : (entries.map Prod.fst).Nodup) :
    lookUp name entries = some value ↔ (name, value) ∈ entries := by
  induction entries with
  | nil => simp [lookUp]
  | cons entry rest ih =>
      obtain ⟨other, old⟩ := entry
      rw [List.map_cons, List.nodup_cons] at hNodup
      rw [lookUp, List.mem_cons]
      by_cases hName : other = name
      · subst hName
        have hNot : (other, value) ∉ rest := fun hMem =>
          hNodup.1 (List.mem_map.mpr ⟨_, hMem, rfl⟩)
        rw [if_pos rfl, Option.some.injEq, Prod.mk.injEq, eq_comm (a := old)]
        simp [hNot]
      · rw [if_neg hName, ih hNodup.2, Prod.mk.injEq]
        simp [Ne.symm hName]

theorem nodup_sorted (p : Properties H) : (p.sorted.map Prod.fst).Nodup :=
  ((p.sorted_perm.map Prod.fst).nodup_iff).mpr p.distinct

/-- The sorted entries have ascending names, none of them twice. -/
theorem sorted_strict (p : Properties H) : p.sorted.Pairwise fun a b => a.1 < b.1 := by
  have hDistinct : p.sorted.Pairwise fun a b => a.1 ≠ b.1 := List.pairwise_map.mp p.nodup_sorted
  refine (p.sorted_ascending.and hDistinct).imp fun {a b} hBoth => ?_
  exact String.not_le.mp fun hLe => hBoth.2 (String.le_antisymm hBoth.1 hLe)

/-- The order of the entries does not matter. -/
theorem lookUp_sorted (p : Properties H) (name : String) : lookUp name p.sorted = p.get? name := by
  refine Option.ext fun value => ?_
  rw [lookUp_eq_some_iff p.nodup_sorted, get?, lookUp_eq_some_iff p.distinct,
    p.sorted_perm.mem_iff]

@[simp] theorem get?_empty (name : String) : (empty : Properties H).get? name = none := rfl

/-! ## Laying properties over others -/

/-- **A value that is no handler lies over the one below.** -/
theorem get?_overlay (old fresh : Properties H) (name : String) :
    (old.overlay fresh).get? name =
      ((fresh.get? name).filter (!·.isHandler)).or (old.get? name) := by
  rw [overlay, ← lookUp_sorted fresh]
  have hNodup := fresh.nodup_sorted
  generalize fresh.sorted = entries at hNodup
  induction entries generalizing old with
  | nil => rfl
  | cons entry rest ih =>
      obtain ⟨other, value⟩ := entry
      rw [List.map_cons, List.nodup_cons] at hNodup
      rw [List.foldl_cons, ih _ hNodup.2, lookUp]
      by_cases hName : other = name
      · subst hName
        rw [lookUp_eq_none hNodup.1, if_pos rfl]
        cases hHandler : value.isHandler <;> simp [Option.filter, hHandler]
      · rw [if_neg hName]
        cases hHandler : value.isHandler with
        | true => rfl
        | false =>
            simp only [Bool.false_eq_true, if_false]
            rw [get?_set_ne old value (Ne.symm hName)]

/-! ## Handlers -/

theorem mem_handlersOf {entries : List (String × Value H)} {event : String} {handler : H} :
    (event, handler) ∈ handlersOf entries ↔ (event, Value.handler handler) ∈ entries := by
  rw [handlersOf, List.mem_filterMap]
  refine ⟨?_, fun hMem => ⟨_, hMem, rfl⟩⟩
  rintro ⟨⟨name, value⟩, hMem, hEq⟩
  cases value with
  | handler other =>
      have hBoth : name = event ∧ other = handler := by simpa [Value.asHandler?] using hEq
      rw [← hBoth.1, ← hBoth.2]
      exact hMem
  | _ => simp [Value.asHandler?] at hEq

/-- The handlers are those among the properties. -/
theorem mem_handlers {p : Properties H} {event : String} {handler : H} :
    (event, handler) ∈ p.handlers ↔ p.get? event = some (.handler handler) := by
  rw [handlers, mem_handlersOf, p.sorted_perm.mem_iff, get?, lookUp_eq_some_iff p.distinct]

/-- The handlers come by ascending name, none of them twice. -/
theorem handlers_ascending (p : Properties H) : p.handlers.Pairwise fun a b => a.1 < b.1 := by
  rw [handlers, handlersOf]
  refine p.sorted_strict.filterMap _ ?_
  intro a b hLt c hC d hD
  rw [Option.map_eq_some_iff] at hC hD
  obtain ⟨-, -, rfl⟩ := hC
  obtain ⟨-, -, rfl⟩ := hD
  exact hLt

/-- **Under a name there is the one handler or none.** -/
theorem filter_handlers (p : Properties H) (event : String) :
    (p.handlers.filter fun handler => handler.1 == event).map Prod.snd =
      ((p.get? event).bind Value.asHandler?).toList := by
  rw [handlers, ← lookUp_sorted p]
  have hNodup := p.nodup_sorted
  generalize p.sorted = entries at hNodup
  induction entries with
  | nil => rfl
  | cons entry rest ih =>
      obtain ⟨name, value⟩ := entry
      rw [List.map_cons, List.nodup_cons] at hNodup
      have hRest := ih hNodup.2
      by_cases hName : name = event
      · subst hName
        rw [lookUp_eq_none hNodup.1, Option.bind_none] at hRest
        rw [lookUp, if_pos rfl, Option.bind_some]
        cases value with
        | handler handler => simpa [handlersOf, Value.asHandler?] using hRest
        | _ => simpa [handlersOf, Value.asHandler?] using hRest
      · rw [lookUp, if_neg hName, ← hRest]
        cases value with
        | handler handler => simp [handlersOf, Value.asHandler?, hName]
        | _ => simp [handlersOf, Value.asHandler?]

end Properties

end LiveMarkup
