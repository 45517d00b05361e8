import LiveMarkup.Proofs.Markup.TakenPiece
import LiveMarkup.Proofs.Template.Remarks
import Mathlib.Data.List.Forall2

/-!
# What the attributes of an element come to

The attributes of an element may stand in any order, names may recur in several
spellings, and two of them may be directives. What they come to is said here from
the list of attributes alone: by the first attribute with the name of a directive,
by what its value is, and attribute by attribute for the others.

## Main definitions

* `IsFirst` — the first member of a list with a property.
* `Binds` — what one attribute binds.
* `Means` — what the attributes of an element come to.

## Main results

* `bindingOf_eq_iff` — an attribute binds one thing, and something.
* `condition?_eq_some_iff`, `loop?_eq_some_iff`, `malformedLoop?_eq_some_iff` — the
  directives of an element.
* `fault?_eq` — the two things that can be wrong with an element.
* `classify_means` — **attributes have a meaning unless one of two things is wrong**.
-/

namespace LiveMarkup.Template

open Markup (Attribute Tag IsBlank Trimmed)

/-! ## The first of its kind -/

/-- `a` is the first of `xs` with the property. -/
def IsFirst {α : Type} (p : α → Bool) (xs : List α) (a : α) : Prop :=
  ∃ front back, xs = front ++ a :: back ∧ p a = true ∧ ∀ earlier ∈ front, p earlier = false

theorem find?_eq_some_iff_isFirst {α : Type} {p : α → Bool} {xs : List α} {a : α} :
    xs.find? p = some a ↔ IsFirst p xs a := by
  rw [List.find?_eq_some_iff_append]
  constructor
  · rintro ⟨hHere, front, back, rfl, hFront⟩
    exact ⟨front, back, rfl, hHere, fun earlier hMem => by simpa using hFront earlier hMem⟩
  · rintro ⟨front, back, rfl, hHere, hFront⟩
    exact ⟨hHere, front, back, rfl, fun earlier hMem => by simp [hFront earlier hMem]⟩

/-- Whether an attribute has the given name, whatever the case of its letters. -/
def isNamed (name : String) (a : Attribute) : Bool :=
  Text.equalFold a.name name

/-! ## What an attribute binds -/

/-- What an attribute binds that is no directive. A low line with something behind it
makes an event, if the options have one of that name, or a property with the value of
an expression; any other attribute binds its own text. -/
inductive Binds (options : Options) : Attribute → Binding → Prop where
  | event {rest : List Char} {event value : String} (hRest : rest ≠ [])
      (hEvent : IsFirst (Text.equalFold · (String.ofList rest)) options.events event) :
      Binds options ⟨String.ofList ('_' :: rest), value⟩ (.event event value)
  | dynamic {rest : List Char} {value : String} (hRest : rest ≠ [])
      (hNoEvent : ∀ event ∈ options.events, Text.equalFold event (String.ofList rest) = false) :
      Binds options ⟨String.ofList ('_' :: rest), value⟩ (.dynamic (String.ofList rest) value)
  | literal {name value : String} (hName : ∀ rest, name.toList = '_' :: rest → rest = []) :
      Binds options ⟨name, value⟩ (.literal name value)

/-- An attribute with the low line and something behind it in its name. -/
theorem bindingOf_reserved (options : Options) {rest : List Char} (hRest : rest ≠ [])
    (value : String) : bindingOf options ⟨String.ofList ('_' :: rest), value⟩ =
      match options.eventName? (String.ofList rest) with
      | some event => .event event value
      | none => .dynamic (String.ofList rest) value := by
  obtain ⟨first, rest, rfl⟩ := List.exists_cons_of_ne_nil hRest
  cases hEvent : options.eventName? (String.ofList (first :: rest)) with
  | none => simp only [bindingOf, String.toList_ofList, hEvent]
  | some event => simp only [bindingOf, String.toList_ofList, hEvent]

/-- Any other attribute. -/
theorem bindingOf_plain (options : Options) {name : String}
    (hName : ∀ rest, name.toList = '_' :: rest → rest = []) (value : String) :
    bindingOf options ⟨name, value⟩ = .literal name value := by
  unfold bindingOf
  split
  · rename_i first rest hChars
    exact absurd (hName _ hChars) (List.cons_ne_nil first rest)
  · rfl

theorem Binds.bindingOf {options : Options} {a : Attribute} {binding : Binding}
    (h : Binds options a binding) : bindingOf options a = binding := by
  cases h with
  | event hRest hEvent =>
      rw [bindingOf_reserved options hRest, Options.eventName?,
        find?_eq_some_iff_isFirst.mpr hEvent]
  | @dynamic rest _ hRest hNoEvent =>
      have hNone : options.eventName? (String.ofList rest) = none :=
        List.find?_eq_none.mpr fun event hMem => by simp [hNoEvent event hMem]
      rw [bindingOf_reserved options hRest, hNone]
  | literal hName => exact bindingOf_plain options hName _

theorem binds_bindingOf (options : Options) (a : Attribute) :
    Binds options a (bindingOf options a) := by
  obtain ⟨name, value⟩ := a
  by_cases hName : ∃ rest, name.toList = '_' :: rest ∧ rest ≠ []
  · obtain ⟨rest, hChars, hRest⟩ := hName
    obtain rfl : name = String.ofList ('_' :: rest) := by rw [← hChars, String.ofList_toList]
    rw [bindingOf_reserved options hRest]
    cases hEvent : options.eventName? (String.ofList rest) with
    | some event => exact .event hRest (find?_eq_some_iff_isFirst.mp hEvent)
    | none =>
        refine .dynamic hRest fun event hMem => ?_
        simpa using List.find?_eq_none.mp hEvent event hMem
  · have hPlain : ∀ rest, name.toList = '_' :: rest → rest = [] := fun rest hChars =>
      not_not.mp fun hRest => hName ⟨rest, hChars, hRest⟩
    rw [bindingOf_plain options hPlain]
    exact .literal hPlain

/-- **An attribute binds one thing, and something.** -/
theorem bindingOf_eq_iff {options : Options} {a : Attribute} {binding : Binding} :
    bindingOf options a = binding ↔ Binds options a binding :=
  ⟨fun h => h ▸ binds_bindingOf options a, Binds.bindingOf⟩

/-- Attributes bind their things one for one. -/
theorem forall₂_binds (options : Options) (attributes : List Attribute) :
    List.Forall₂ (Binds options) attributes (attributes.map (bindingOf options)) := by
  rw [List.forall₂_map_right_iff]
  exact List.forall₂_same.mpr fun a _ => binds_bindingOf options a

/-! ## Directives -/

/-- The condition on an element: the value of the first attribute that is named for
it, without the white space around it. -/
def HasCondition (tag : Tag) (condition : String) : Prop :=
  ∃ a before behind, IsFirst (isNamed conditionName) tag.attributes a ∧
    a.value.toList = before ++ (condition.toList ++ behind) ∧ IsBlank before ∧ IsBlank behind ∧
      Trimmed condition.toList

/-- The loop on an element: what the value of the first attribute describes that is
named for it. -/
def HasLoop (tag : Tag) (loop : Loop) : Prop :=
  ∃ a, IsFirst (isNamed loopName) tag.attributes a ∧ Loop.read? a.value = some loop

/-- The first attribute that is named for a loop does not describe one. -/
def HasBadLoop (tag : Tag) (a : Attribute) : Prop :=
  IsFirst (isNamed loopName) tag.attributes a ∧ Loop.read? a.value = none

theorem condition?_eq_some_iff {tag : Tag} {condition : String} :
    condition? tag.attributes = some condition ↔ HasCondition tag condition := by
  rw [condition?, Option.map_eq_some_iff]
  constructor
  · rintro ⟨a, hFirst, rfl⟩
    obtain ⟨before, behind, hValue, hBefore, hBehind, hTrimmed⟩ :=
      Markup.exists_trim_append a.value.toList
    refine ⟨a, before, behind, find?_eq_some_iff_isFirst.mp hFirst, ?_, hBefore, hBehind, ?_⟩
    · rwa [String.toList_ofList]
    · rwa [String.toList_ofList]
  · rintro ⟨a, before, behind, hFirst, hValue, hBefore, hBehind, hTrimmed⟩
    refine ⟨a, find?_eq_some_iff_isFirst.mpr hFirst, ?_⟩
    rw [hValue, Markup.trim_append hBefore hBehind hTrimmed, String.ofList_toList]

theorem loop?_eq_some_iff {tag : Tag} {loop : Loop} :
    loop? tag.attributes = some loop ↔ HasLoop tag loop := by
  rw [loop?, Option.bind_eq_some_iff]
  exact exists_congr fun a => and_congr_left' find?_eq_some_iff_isFirst

theorem malformedLoop?_eq_some_iff {tag : Tag} {dropped : DroppedLoop} :
    malformedLoop? tag = some dropped ↔
      ∃ a, HasBadLoop tag a ∧ dropped = ⟨a, tag.name, tag.line⟩ := by
  rw [malformedLoop?, Option.bind_eq_some_iff]
  refine exists_congr fun a => ?_
  have hFirst : loopAttribute? tag.attributes = some a ↔
      IsFirst (isNamed loopName) tag.attributes a := find?_eq_some_iff_isFirst
  rw [hFirst, HasBadLoop, and_assoc]
  refine and_congr_right fun _ => ?_
  cases Loop.read? a.value with
  | none => simp [eq_comm]
  | some loop => simp

theorem isSome_condition?_iff {tag : Tag} : (condition? tag.attributes).isSome ↔
    ∃ a, IsFirst (isNamed conditionName) tag.attributes a := by
  rw [condition?, Option.isSome_map, Option.isSome_iff_exists]
  exact exists_congr fun a => find?_eq_some_iff_isFirst

/-- A condition and a loop on one element. -/
def Conflicts (tag : Tag) : Prop :=
  (∃ a, IsFirst (isNamed conditionName) tag.attributes a) ∧ ∃ loop, HasLoop tag loop

/-- A loop that is not one, where that is not to be tolerated. -/
def Rejects (options : Options) (tag : Tag) : Prop :=
  options.strictDirectives = true ∧ ∃ a, HasBadLoop tag a

/-! ## What is wrong -/

/-- **Two things can be wrong with an element**: its loop, for strict options, and a
condition beside a loop. -/
theorem fault?_eq (options : Options) (tag : Tag) :
    fault? options tag =
      (if options.strictDirectives then (malformedLoop? tag).map .malformed else none).or
        (if (loop? tag.attributes).isSome ∧ (condition? tag.attributes).isSome then
          some (.conflicting tag.name tag.line) else none) := by
  rw [fault?, malformedLoop?, loop?]
  unfold classify
  cases loopAttribute? tag.attributes with
  | none => simp
  | some a =>
      cases hRead : Loop.read? a.value with
      | none => cases options.strictDirectives <;> simp [hRead]
      | some loop => cases hCondition : condition? tag.attributes <;> simp [hRead]

theorem classify_eq_malformed_iff {options : Options} {tag : Tag} {dropped : DroppedLoop} :
    classify options tag = .error (.malformed dropped) ↔
      options.strictDirectives = true ∧ ∃ a, HasBadLoop tag a ∧
        dropped = ⟨a, tag.name, tag.line⟩ := by
  rw [← fault?_eq_some_iff, fault?_eq, ← malformedLoop?_eq_some_iff]
  cases options.strictDirectives <;> cases malformedLoop? tag <;> simp

/-- A loop is not well formed and malformed at once. -/
theorem malformedLoop?_eq_none {tag : Tag} {loop : Loop} (h : loop? tag.attributes = some loop) :
    malformedLoop? tag = none := by
  obtain ⟨a, hFirst, hRead⟩ := Option.bind_eq_some_iff.mp h
  rw [malformedLoop?, hFirst, Option.bind_some, hRead]
  rfl

theorem classify_eq_conflicting_iff {options : Options} {tag : Tag} {element : String}
    {line : Nat} : classify options tag = .error (.conflicting element line) ↔
      Conflicts tag ∧ element = tag.name ∧ line = tag.line := by
  have hConflicts : Conflicts tag ↔
      (loop? tag.attributes).isSome ∧ (condition? tag.attributes).isSome := by
    rw [Conflicts, ← isSome_condition?_iff, and_comm]
    simp only [← loop?_eq_some_iff, ← Option.isSome_iff_exists]
  rw [← fault?_eq_some_iff, fault?_eq, hConflicts]
  cases hLoop : loop? tag.attributes with
  | none => cases options.strictDirectives <;> cases malformedLoop? tag <;> simp
  | some loop =>
      rw [malformedLoop?_eq_none hLoop, eq_comm (a := element), eq_comm (a := line)]
      cases condition? tag.attributes <;> simp

/-! ## What there is -/

/-- What the attributes of an element come to, if nothing is wrong with them. -/
structure Means (options : Options) (tag : Tag) (classified : Classified) : Prop where
  /-- A loop is the directive; without one, a condition is. -/
  loop : ∀ loop, HasLoop tag loop → classified.directive = some (.each loop)
  condition : (¬ ∃ loop, HasLoop tag loop) → ∀ condition, HasCondition tag condition →
    classified.directive = some (.when condition)
  none : (¬ ∃ loop, HasLoop tag loop) →
    (¬ ∃ a, IsFirst (isNamed conditionName) tag.attributes a) → classified.directive = .none
  /-- A loop that is not one is remarked, and there is no other remark. -/
  dropped : ∀ a, HasBadLoop tag a →
    classified.diagnostics = [DroppedLoop.diagnostic ⟨a, tag.name, tag.line⟩]
  silent : (¬ ∃ a, HasBadLoop tag a) → classified.diagnostics = []
  /-- All attributes but those named for a directive bind something, in their order. -/
  bindings : List.Forall₂ (Binds options)
    (tag.attributes.filter fun a => !(isNamed conditionName a || isNamed loopName a))
    classified.bindings

/-- What is none for all that it could be. -/
theorem eq_none_of_not_exists {α : Type} {found : Option α} {Is : α → Prop}
    (h : ∀ a, found = some a ↔ Is a) (hNone : ¬ ∃ a, Is a) : found = none :=
  Option.eq_none_iff_forall_ne_some.mpr fun a hSome => hNone ⟨a, (h a).mp hSome⟩

theorem means_of_classify {options : Options} {tag : Tag} {classified : Classified}
    (h : classify options tag = .ok classified) : Means options tag classified where
  loop := fun loop hLoop => by
    rw [classify_directive h, loop?_eq_some_iff.mpr hLoop]
    rfl
  condition := fun hNoLoop condition hCondition => by
    have hNone := eq_none_of_not_exists (fun _ => loop?_eq_some_iff) hNoLoop
    rw [classify_directive h, hNone, condition?_eq_some_iff.mpr hCondition]
    rfl
  none := fun hNoLoop hNoCondition => by
    have hNone := eq_none_of_not_exists (fun _ => loop?_eq_some_iff) hNoLoop
    have hPlain : condition? tag.attributes = .none :=
      Option.not_isSome_iff_eq_none.mp (mt isSome_condition?_iff.mp hNoCondition)
    rw [classify_directive h, hNone, hPlain]
    rfl
  dropped := fun a hBad => by
    rw [diagnostics_of_classify h, malformedLoop?_eq_some_iff.mpr ⟨a, hBad, rfl⟩]
    rfl
  silent := fun hNoBad => by
    have hNone := eq_none_of_not_exists (fun _ => malformedLoop?_eq_some_iff)
      fun ⟨_, a, hBad, _⟩ => hNoBad ⟨a, hBad⟩
    rw [diagnostics_of_classify h, hNone]
    rfl
  bindings := by
    rw [classify_bindings h]
    exact forall₂_binds options _

/-- **Attributes have a meaning unless one of two things is wrong**: a loop that is not
one, for strict options, or a condition beside a loop. The errors are as told, and the
meaning is the one that `Means` describes, wherever among the attributes the
directives stand. -/
theorem classify_means (options : Options) (tag : Tag) :
    (∀ dropped, classify options tag = .error (.malformed dropped) ↔
      options.strictDirectives = true ∧ ∃ a, HasBadLoop tag a ∧
        dropped = ⟨a, tag.name, tag.line⟩) ∧
    (∀ element line, classify options tag = .error (.conflicting element line) ↔
      Conflicts tag ∧ element = tag.name ∧ line = tag.line) ∧
    (¬ Rejects options tag → ¬ Conflicts tag →
      ∃ classified, classify options tag = .ok classified ∧ Means options tag classified) := by
  refine ⟨fun dropped => classify_eq_malformed_iff,
    fun element line => classify_eq_conflicting_iff, fun hLoop hConflict => ?_⟩
  cases hTag : classify options tag with
  | ok classified => exact ⟨classified, rfl, means_of_classify hTag⟩
  | error e =>
      cases e with
      | malformed dropped =>
          obtain ⟨hStrict, a, hBad, -⟩ := classify_eq_malformed_iff.mp hTag
          exact absurd ⟨hStrict, a, hBad⟩ hLoop
      | conflicting element line =>
          exact absurd (classify_eq_conflicting_iff.mp hTag).1 hConflict

/-- Directives between other attributes, each of them twice. The first loop is not one,
so it is dropped, although the second is, and the first condition is that of the
element. A low line alone is a name like any other. -/
theorem classify_means_mixed :
    let tag : Tag := ⟨"row", [⟨"_", "low"⟩, ⟨"_FOREACH", "rows"⟩, ⟨"_Value", "1 + 1"⟩,
      ⟨"_If", " a\n"⟩, ⟨"_KEY_UP", "go()"⟩, ⟨"_foreach", "x of xs"⟩, ⟨"_if", "b"⟩], 3⟩
    let classified : Classified :=
      ⟨some (.when "a"), [.literal "_" "low", .dynamic "Value" "1 + 1", .event "key_up" "go()"],
        some ⟨⟨"_FOREACH", "rows"⟩, "row", 3⟩⟩
    ¬ Rejects .standard tag ∧ ¬ Conflicts tag ∧
      classify .standard tag = .ok classified ∧ Means .standard tag classified ∧
      classify Options.standard.strict tag =
        .error (.malformed ⟨⟨"_FOREACH", "rows"⟩, "row", 3⟩) := by
  intro tag classified
  have hFirst : loopAttribute? tag.attributes = some ⟨"_FOREACH", "rows"⟩ := by decide +kernel
  have hBad : HasBadLoop tag ⟨"_FOREACH", "rows"⟩ :=
    ⟨find?_eq_some_iff_isFirst.mp hFirst, by decide +kernel⟩
  have hRejects : ¬ Rejects .standard tag := fun h => Bool.false_ne_true h.1
  have hConflicts : ¬ Conflicts tag := by
    rintro ⟨-, loop, hLoop⟩
    have hNone : loop? tag.attributes = none := by decide +kernel
    rw [loop?_eq_some_iff.mpr hLoop] at hNone
    cases hNone
  have hTag : classify .standard tag = .ok classified := by decide +kernel
  obtain ⟨other, hOther, hMeans⟩ := (classify_means .standard tag).2.2 hRejects hConflicts
  obtain rfl : classified = other := Except.ok.inj (hTag.symm.trans hOther)
  exact ⟨hRejects, hConflicts, hTag, hMeans,
    ((classify_means Options.standard.strict tag).1 _).mpr ⟨rfl, _, hBad, rfl⟩⟩

end LiveMarkup.Template
