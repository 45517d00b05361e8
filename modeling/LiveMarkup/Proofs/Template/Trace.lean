import LiveMarkup.Proofs.Template.Numbering
import LiveMarkup.Proofs.Template.Steps

/-!
# The steps of a plan

The program for a plan has a block for every element but the root, and in it the steps
of that element: it is declared, its properties are set, the elements in it are built in
blocks of their own, and at the end it is pushed. `Plan.traceAll` are the steps of
elements in a row. Blocks are opened in the order in which elements are declared, so the
block of an element has its number.

Thus what steps have to do with each other comes down to comparing numbers. `InOrder` is
what may be said of any two steps of a program, and `Placed` tells in which blocks one
stands. That elements keep apart from those behind them is in `Spans`: their numbers lie
next to each other, and the steps stand in no blocks but theirs.

## Main results

* `steps_program` — the steps of the program for a plan.
* `inOrder_traceAll` — **any two steps are in order**.
* `placed_traceAll` — **every step is in its place**.
-/

namespace LiveMarkup.Template

open Markup (Tag)

/-! ## The steps of a plan -/

/-- Induction over plans in a row: an element is reduced to the plans of the elements in
it and to those behind it. -/
theorem Plan.induction_all {motive : List Plan → Prop} (nil : motive [])
    (element : ∀ tag classified children rest, motive children → motive rest →
      motive (.element tag classified children :: rest)) : ∀ plans, motive plans
  | [] => nil
  | .element tag classified children :: rest =>
    element tag classified children rest (Plan.induction_all nil element children)
      (Plan.induction_all nil element rest)

/-- The steps that an element is declared and its properties are set in. -/
def ownSteps (scope : List Nat) (n : Nat) (tag : Tag) (classified : Classified) : List Step :=
  ⟨scope, .declare n tag.name⟩ ::
    classified.bindings.map fun b => ⟨scope, .set n b.source.1 b.source.2⟩

/-- The steps of elements in a row, which lie in the element `parent` and the first of
which has the number `next`. The block of an element has its number. -/
def Plan.traceAll (parent next : Nat) (scope : List Nat) : List Plan → List Step
  | [] => []
  | .element tag classified children :: rest =>
    (⟨scope, .opening (.ofDirective classified.directive)⟩ ::
      (ownSteps (next :: scope) next tag classified ++
        traceAll next (next + 1) (next :: scope) children ++
        [⟨next :: scope, .push parent next⟩, ⟨scope, .closing⟩])) ++
      traceAll parent (next + 1 + sizeAll children) scope rest

/-- The steps that an element and the elements in it are built in. -/
def builtSteps (next : Nat) (scope : List Nat) (tag : Tag) (classified : Classified)
    (children : List Plan) : List Step :=
  ownSteps scope next tag classified ++ Plan.traceAll next (next + 1) scope children

/-- The steps of the block of an element. -/
def blockSteps (parent next : Nat) (scope : List Nat) (tag : Tag) (classified : Classified)
    (children : List Plan) : List Step :=
  ⟨scope, .opening (.ofDirective classified.directive)⟩ ::
    (builtSteps next (next :: scope) tag classified children ++
      [⟨next :: scope, .push parent next⟩, ⟨scope, .closing⟩])

theorem traceAll_element (parent next : Nat) (scope : List Nat) (tag : Tag)
    (classified : Classified) (children rest : List Plan) :
    Plan.traceAll parent next scope (.element tag classified children :: rest) =
      blockSteps parent next scope tag classified children ++
        Plan.traceAll parent (next + 1 + Plan.sizeAll children) scope rest := by
  rw [Plan.traceAll, blockSteps, builtSteps]

theorem mem_ownSteps {scope : List Nat} {n : Nat} {tag : Tag} {classified : Classified}
    {step : Step} (h : step ∈ ownSteps scope n tag classified) :
    step = ⟨scope, .declare n tag.name⟩ ∨ ∃ name source, step = ⟨scope, .set n name source⟩ := by
  rcases List.mem_cons.mp h with rfl | hSet
  · exact .inl rfl
  · obtain ⟨binding, -, rfl⟩ := List.mem_map.mp hSet
    exact .inr ⟨_, _, rfl⟩

theorem mem_blockSteps {parent next : Nat} {scope : List Nat} {tag : Tag}
    {classified : Classified} {children : List Plan} {step : Step} :
    step ∈ blockSteps parent next scope tag classified children ↔
      step = ⟨scope, .opening (.ofDirective classified.directive)⟩ ∨
        step ∈ builtSteps next (next :: scope) tag classified children ∨
        step = ⟨next :: scope, .push parent next⟩ ∨ step = ⟨scope, .closing⟩ := by
  simp only [blockSteps, List.mem_cons, List.mem_append, List.not_mem_nil, or_false]

/-- Setting properties opens no blocks. -/
theorem stepsFrom_setsOf (block n : Nat) (scope : List Nat) (bindings : List Binding)
    (rest : List Act) :
    stepsFrom block scope (Statement.actsAll (setsOf n bindings) ++ rest) =
      bindings.map (fun b => ⟨scope, .set n b.source.1 b.source.2⟩) ++
        stepsFrom block scope rest := by
  induction bindings with
  | nil => rfl
  | cons binding others ih =>
      rw [setsOf, List.map_cons, Statement.actsAll, Statement.acts, List.append_assoc,
        List.singleton_append, stepsFrom_plain rfl, ← setsOf, ih, List.map_cons, List.cons_append]

/-- An element takes one variable, and then those of the elements in it. -/
theorem add_sizeAll (next : Nat) (tag : Tag) (classified : Classified) (children rest : List Plan) :
    next + Plan.sizeAll (.element tag classified children :: rest) =
      next + 1 + Plan.sizeAll children + Plan.sizeAll rest := by
  rw [Plan.sizeAll, Plan.size]
  omega

theorem actsAll_build (next : Nat) (tag : Tag) (classified : Classified) (children : List Plan) :
    Statement.actsAll (Plan.build next (.element tag classified children)) =
      .declare next tag.name :: (Statement.actsAll (setsOf next classified.bindings) ++
        Statement.actsAll (Plan.buildAll next (next + 1) children)) := by
  rw [build_element, Statement.actsAll, actsAll_append, Statement.acts, List.singleton_append]

theorem actsAll_buildAll (parent next : Nat) (plan : Plan) (rest : List Plan) :
    Statement.actsAll (Plan.buildAll parent next (plan :: rest)) =
      .opening (.ofDirective plan.classified.directive) ::
        (Statement.actsAll (plan.build next) ++ .push parent next :: .closing ::
          Statement.actsAll (Plan.buildAll parent (next + plan.size) rest)) := by
  rw [Plan.buildAll, Statement.actsAll, Statement.acts, actsAll_append, List.cons_append,
    List.append_assoc, List.append_assoc]
  rfl

/-- The steps of children are those of their plans, and behind them as many blocks have
been opened as there are elements. -/
theorem stepsFrom_buildAll (plans : List Plan) (parent next : Nat) (scope : List Nat)
    (rest : List Act) :
    stepsFrom next scope (Statement.actsAll (Plan.buildAll parent next plans) ++ rest) =
      Plan.traceAll parent next scope plans ++
        stepsFrom (next + Plan.sizeAll plans) scope rest := by
  induction plans using Plan.induction_all generalizing parent next scope rest with
  | nil =>
      rw [Plan.buildAll, Plan.traceAll]
      rfl
  | element tag classified children others ihChildren ihOthers =>
      have hSize : next + (Plan.element tag classified children).size =
          next + 1 + Plan.sizeAll children := by rw [Plan.size, Nat.add_assoc]
      rw [actsAll_buildAll, actsAll_build, hSize, add_sizeAll, traceAll_element, blockSteps,
        builtSteps, ownSteps, Plan.classified]
      simp only [List.cons_append, List.append_assoc, List.nil_append]
      rw [stepsFrom, stepsFrom_plain rfl, stepsFrom_setsOf, ihChildren, stepsFrom_plain rfl,
        stepsFrom, List.tail_cons, ihOthers]

/-- **The steps of the program for a plan**: those of its root, and those of the elements
in it. -/
theorem steps_program (tag : Tag) (classified : Classified) (children : List Plan) :
    stepsOf (Plan.element tag classified children).program =
      builtSteps 0 [] tag classified children := by
  rw [stepsOf, Plan.program, builtSteps, actsAll_build, stepsFrom_plain rfl, stepsFrom_setsOf,
    ← List.append_nil (Statement.actsAll (Plan.buildAll ..)), stepsFrom_buildAll, stepsFrom,
    List.append_nil, ownSteps, List.cons_append]

/-! ## Order -/

/-- What a step has to do with one further on. Numbers of declarations grow, and behind
a declaration no property is set of a node with a smaller number. Nothing is declared
behind a property that has a smaller number than its node, or the same. Behind a push
nothing stands in the block of the node that is pushed, and what else is pushed into the
same node has a greater number. -/
def InOrder (step later : Step) : Prop :=
  match step.act with
  | .declare m _ => (∀ n tag, later.act = .declare n tag → m < n) ∧
      ∀ n name source, later.act = .set n name source → m ≤ n
  | .set m _ _ => ∀ n tag, later.act = .declare n tag → m < n
  | .push parent child => child ∉ later.scope ∧
      ∀ other, later.act = .push parent other → child < other
  | .opening _ | .closing => True

/-- The element that an act declares or sets a property of. -/
def Act.owner? : Act → Option Nat
  | .declare n _ | .set n _ _ => some n
  | _ => none

/-- The numbers in a step of elements that lie in the element `parent`, where theirs are
those from `next` to `high`, and which stand in blocks of the given scope. -/
structure Spans (parent next high : Nat) (scope : List Nat) (step : Step) : Prop where
  /-- The step stands in the scope, and in blocks of the elements. -/
  inside : ∃ inner, step.scope = inner ++ scope ∧ ∀ block ∈ inner, next ≤ block ∧ block < high
  owner : ∀ n, step.act.owner? = some n → next ≤ n ∧ n < high
  pushes : ∀ p c, step.act = .push p c → parent ≤ p ∧ next ≤ c ∧ c < high

namespace Spans

variable {parent next high : Nat} {scope : List Nat} {step : Step}

/-- Steps of the elements in an element are among the steps of that element. -/
theorem widen (h : Spans next (next + 1) high (next :: scope) step) (hParent : parent ≤ next)
    (hHigh : next < high) : Spans parent next high scope step := by
  obtain ⟨inner, hScope, hInner⟩ := h.inside
  refine ⟨⟨inner ++ [next], ?_, fun block hMem => ?_⟩, fun n hOwner => ?_, fun p c hAct => ?_⟩
  · rw [hScope, List.append_assoc, List.singleton_append]
  · rcases List.mem_append.mp hMem with hDeep | hHere
    · have := hInner block hDeep
      omega
    · rw [List.mem_singleton.mp hHere]
      exact ⟨Nat.le_refl next, hHigh⟩
  · have := h.owner n hOwner
    omega
  · have := h.pushes p c hAct
    omega

/-- Steps of some elements are among the steps of more. -/
theorem mono (h : Spans parent next high scope step) {lower higher : Nat} (hLower : lower ≤ next)
    (hHigher : high ≤ higher) : Spans parent lower higher scope step := by
  obtain ⟨inner, hScope, hInner⟩ := h.inside
  refine ⟨⟨inner, hScope, fun block hMem => ?_⟩, fun n hOwner => ?_, fun p c hAct => ?_⟩
  · have := hInner block hMem
    omega
  · have := h.owner n hOwner
    omega
  · have := h.pushes p c hAct
    omega

/-- A step does not stand in a block that is none of the scope and none of the elements. -/
theorem not_mem_scope (h : Spans parent next high scope step) {block : Nat}
    (hScope : ∀ outer ∈ scope, outer < block) (hNext : block < next) : block ∉ step.scope := by
  obtain ⟨inner, hInside, hInner⟩ := h.inside
  rw [hInside, List.mem_append]
  rintro (hDeep | hOuter)
  · exact absurd (hInner block hDeep).1 (Nat.not_le_of_lt hNext)
  · exact absurd (hScope block hOuter) (Nat.lt_irrefl block)

/-- Steps of elements are in order with those of the elements behind them. -/
theorem inOrder (h : Spans parent next high scope step) {later : Step} {higher : Nat}
    (hLater : Spans parent high higher scope later) (hScope : ∀ block ∈ scope, block < next) :
    InOrder step later := by
  obtain ⟨around, act⟩ := step
  cases act with
  | declare m tag =>
      have hHere : m < high := (h.owner m rfl).2
      constructor
      · intro n other hAct
        exact Nat.lt_of_lt_of_le hHere (hLater.owner n (by rw [hAct]; rfl)).1
      · intro n name source hAct
        exact Nat.le_of_lt (Nat.lt_of_lt_of_le hHere (hLater.owner n (by rw [hAct]; rfl)).1)
  | set m name source =>
      have hHere : m < high := (h.owner m rfl).2
      intro n other hAct
      exact Nat.lt_of_lt_of_le hHere (hLater.owner n (by rw [hAct]; rfl)).1
  | push p c =>
      -- the block of the node is none of the scope, which is older, nor of those behind
      obtain ⟨-, hLow, hHere⟩ := h.pushes p c rfl
      constructor
      · exact hLater.not_mem_scope (fun block hMem => Nat.lt_of_lt_of_le (hScope block hMem) hLow)
          hHere
      · intro other hAct
        exact Nat.lt_of_lt_of_le hHere (hLater.pushes p other hAct).2.1
  | opening head => exact trivial
  | closing => exact trivial

end Spans

/-- The numbers in the steps of the block of an element. -/
theorem spans_blockSteps {parent next high : Nat} {scope : List Nat} {tag : Tag}
    {classified : Classified} {children : List Plan} (hParent : parent ≤ next) (hHigh : next < high)
    (hChildren : ∀ step ∈ Plan.traceAll next (next + 1) (next :: scope) children,
      Spans next (next + 1) high (next :: scope) step) :
    ∀ step ∈ blockSteps parent next scope tag classified children,
      Spans parent next high scope step := by
  have hBlock : ∃ inner, next :: scope = inner ++ scope ∧
      ∀ block ∈ inner, next ≤ block ∧ block < high :=
    ⟨[next], rfl, List.forall_mem_singleton.mpr ⟨Nat.le_refl next, hHigh⟩⟩
  have hOutside : ∃ inner, scope = inner ++ scope ∧ ∀ block ∈ inner, next ≤ block ∧ block < high :=
    ⟨[], rfl, fun block hMem => absurd hMem List.not_mem_nil⟩
  have hOwner : ∀ n, some next = some n → next ≤ n ∧ n < high := by
    rintro n ⟨⟩
    exact ⟨Nat.le_refl next, hHigh⟩
  intro step hMem
  rcases mem_blockSteps.mp hMem with rfl | hBuilt | rfl | rfl
  · exact ⟨hOutside, nofun, nofun⟩
  · rcases List.mem_append.mp hBuilt with hOwn | hInside
    · rcases mem_ownSteps hOwn with rfl | ⟨name, source, rfl⟩
      · exact ⟨hBlock, hOwner, nofun⟩
      · exact ⟨hBlock, hOwner, nofun⟩
    · exact (hChildren step hInside).widen hParent hHigh
  · refine ⟨hBlock, nofun, ?_⟩
    rintro p c ⟨⟩
    exact ⟨Nat.le_refl parent, Nat.le_refl next, hHigh⟩
  · exact ⟨hOutside, nofun, nofun⟩

/-- The numbers in the steps of elements are their own. -/
theorem spans_traceAll (plans : List Plan) {parent next : Nat} {scope : List Nat}
    (hParent : parent ≤ next) : ∀ step ∈ Plan.traceAll parent next scope plans,
      Spans parent next (next + Plan.sizeAll plans) scope step := by
  induction plans using Plan.induction_all generalizing parent next scope with
  | nil =>
      rw [Plan.traceAll]
      exact fun step hMem => absurd hMem List.not_mem_nil
  | element tag classified children rest ihChildren ihRest =>
      intro step hMem
      rw [traceAll_element, List.mem_append] at hMem
      rw [add_sizeAll]
      rcases hMem with hBlock | hBehind
      · exact (spans_blockSteps hParent (by omega) (ihChildren (Nat.le_succ next)) step hBlock).mono
          (Nat.le_refl next) (by omega)
      · exact (ihRest (by omega) step hBehind).mono (by omega) (Nat.le_refl _)

/-- The steps that an element is built in are in order if those of the elements in it
are. -/
theorem inOrder_builtSteps {next : Nat} {scope : List Nat} {tag : Tag} {classified : Classified}
    {children : List Plan}
    (hChildren : (Plan.traceAll next (next + 1) scope children).Pairwise InOrder) :
    (builtSteps next scope tag classified children).Pairwise InOrder := by
  refine List.pairwise_append.mpr ⟨List.pairwise_cons.mpr ⟨?_, ?_⟩, hChildren, ?_⟩
  · intro later hLater
    obtain ⟨binding, -, rfl⟩ := List.mem_map.mp hLater
    refine ⟨nofun, ?_⟩
    rintro n name source ⟨⟩
    exact Nat.le_refl next
  · exact List.pairwise_map.mpr (List.pairwise_of_forall fun _ _ => nofun)
  · intro step hOwn later hLater
    have hSpans := spans_traceAll children (Nat.le_succ next) later hLater
    rcases mem_ownSteps hOwn with rfl | ⟨name, source, rfl⟩
    · constructor
      · intro n other hAct
        exact (hSpans.owner n (by rw [hAct]; rfl)).1
      · intro n name source hAct
        exact Nat.le_of_succ_le (hSpans.owner n (by rw [hAct]; rfl)).1
    · intro n other hAct
      exact (hSpans.owner n (by rw [hAct]; rfl)).1

/-- Steps in an element are in order with what ends the block of the element. -/
theorem inOrder_end {n : Nat} {step later : Step}
    (hStep : ∀ p c, step.act = .push p c → n ≤ p ∧ n < c) (hOwner : later.act.owner? = none)
    (hScope : ∀ block ∈ later.scope, block ≤ n)
    (hLater : ∀ p c, later.act = .push p c → p < n) : InOrder step later := by
  obtain ⟨scope, act⟩ := step
  cases act with
  | declare m tag =>
      constructor
      · intro k other hAct
        rw [hAct] at hOwner
        cases hOwner
      · intro k name source hAct
        rw [hAct] at hOwner
        cases hOwner
  | set m name source =>
      intro k other hAct
      rw [hAct] at hOwner
      cases hOwner
  | push p c =>
      obtain ⟨hHere, hChild⟩ := hStep p c rfl
      constructor
      · exact fun hMem => Nat.not_le_of_lt hChild (hScope c hMem)
      · exact fun other hAct => absurd (hLater p other hAct) (Nat.not_lt_of_le hHere)
  | opening head => exact trivial
  | closing => exact trivial

/-- The steps of the block of an element are in order if those of the elements in it
are. -/
theorem inOrder_blockSteps {parent next : Nat} {scope : List Nat} {tag : Tag}
    {classified : Classified} {children : List Plan} (hParent : parent < next)
    (hScope : ∀ block ∈ scope, block < next)
    (hChildren : (Plan.traceAll next (next + 1) (next :: scope) children).Pairwise InOrder) :
    (blockSteps parent next scope tag classified children).Pairwise InOrder := by
  -- what is pushed in the block goes into the node itself or below it
  have hStep : ∀ step ∈ builtSteps next (next :: scope) tag classified children,
      ∀ p c, step.act = .push p c → next ≤ p ∧ next < c := by
    intro step hMem p c hAct
    rcases List.mem_append.mp hMem with hOwn | hInside
    · rcases mem_ownSteps hOwn with rfl | ⟨name, source, rfl⟩ <;> cases hAct
    · have hPush := (spans_traceAll children (Nat.le_succ next) step hInside).pushes p c hAct
      exact ⟨hPush.1, hPush.2.1⟩
  have hOutside : ∀ block ∈ scope, block ≤ next := fun block hMem => Nat.le_of_lt (hScope block hMem)
  have hInside : ∀ block ∈ next :: scope, block ≤ next :=
    List.forall_mem_cons.mpr ⟨Nat.le_refl next, hOutside⟩
  have hPushed : InOrder ⟨next :: scope, .push parent next⟩ ⟨scope, .closing⟩ :=
    ⟨fun hMem => absurd (hScope next hMem) (Nat.lt_irrefl next), nofun⟩
  refine List.pairwise_cons.mpr ⟨fun _ _ => trivial, List.pairwise_append.mpr
    ⟨inOrder_builtSteps hChildren, List.pairwise_pair.mpr hPushed, fun step hMem later hLater => ?_⟩⟩
  have hEnd : later = ⟨next :: scope, .push parent next⟩ ∨ later = ⟨scope, .closing⟩ := by
    simpa using hLater
  rcases hEnd with rfl | rfl
  · refine inOrder_end (hStep step hMem) rfl hInside ?_
    rintro p c ⟨⟩
    exact hParent
  · exact inOrder_end (hStep step hMem) rfl hOutside nofun

/-- **Any two steps of elements are in order.** -/
theorem inOrder_traceAll (plans : List Plan) {parent next : Nat} {scope : List Nat}
    (hParent : parent < next) (hScope : ∀ block ∈ scope, block < next) :
    (Plan.traceAll parent next scope plans).Pairwise InOrder := by
  induction plans using Plan.induction_all generalizing parent next scope with
  | nil =>
      rw [Plan.traceAll]
      exact .nil
  | element tag classified children rest ihChildren ihRest =>
      have hInner : ∀ block ∈ next :: scope, block < next + 1 :=
        List.forall_mem_cons.mpr ⟨Nat.lt_succ_self next,
          fun block hMem => Nat.lt_succ_of_lt (hScope block hMem)⟩
      have hLast : next < next + 1 + Plan.sizeAll children := by omega
      rw [traceAll_element]
      refine List.pairwise_append.mpr ⟨?_, ?_, fun step hMem later hLater => ?_⟩
      · exact inOrder_blockSteps hParent hScope (ihChildren (Nat.lt_succ_self next) hInner)
      · exact ihRest (by omega) fun block hMem => Nat.lt_trans (hScope block hMem) hLast
      · have hHere := spans_blockSteps (Nat.le_of_lt hParent) hLast
          (spans_traceAll children (Nat.le_succ next)) step hMem
        exact hHere.inOrder (spans_traceAll rest (by omega) later hLater) hScope

/-! ## Places -/

/-- A step is in its place among others. A property is set in the blocks in which its
node is declared. A push stands in the block of the node that is pushed, and that block
stands in those in which the other node is declared. -/
structure Placed (steps : List Step) (step : Step) : Prop where
  sets : ∀ n name source, step.act = .set n name source →
    ∃ tag, ⟨step.scope, .declare n tag⟩ ∈ steps
  pushes : ∀ p c, step.act = .push p c → ∃ outer above tag,
    ⟨outer, .declare p above⟩ ∈ steps ∧ step.scope = c :: outer ∧
      ⟨step.scope, .declare c tag⟩ ∈ steps

/-- A step that neither sets nor pushes is in its place anywhere. -/
theorem placed_of_other {steps : List Step} {step : Step}
    (hSets : ∀ n name source, step.act ≠ .set n name source)
    (hPushes : ∀ p c, step.act ≠ .push p c) : Placed steps step :=
  ⟨fun n name source hAct => absurd hAct (hSets n name source),
    fun p c hAct => absurd hAct (hPushes p c)⟩

theorem placed_ownSteps {steps : List Step} {scope : List Nat} {n : Nat} {tag : Tag}
    {classified : Classified} (hDeclare : ⟨scope, .declare n tag.name⟩ ∈ steps) :
    ∀ step ∈ ownSteps scope n tag classified, Placed steps step := by
  intro step hMem
  rcases mem_ownSteps hMem with rfl | ⟨name, source, rfl⟩
  · exact placed_of_other nofun nofun
  · refine ⟨?_, nofun⟩
    rintro m name source ⟨⟩
    exact ⟨tag.name, hDeclare⟩

/-- **Every step of elements is in its place**, among all steps with that in which the
element is declared that they lie in. -/
theorem placed_traceAll {steps : List Step} (plans : List Plan) {parent next : Nat}
    {scope : List Nat} {above : String} (hParent : ⟨scope, .declare parent above⟩ ∈ steps)
    (hSteps : ∀ step ∈ Plan.traceAll parent next scope plans, step ∈ steps) :
    ∀ step ∈ Plan.traceAll parent next scope plans, Placed steps step := by
  induction plans using Plan.induction_all generalizing parent next scope above with
  | nil =>
      rw [Plan.traceAll]
      exact fun step hMem => absurd hMem List.not_mem_nil
  | element tag classified children rest ihChildren ihRest =>
      rw [traceAll_element, List.forall_mem_append] at hSteps
      rw [traceAll_element, List.forall_mem_append]
      refine ⟨fun step hMem => ?_, ihRest hParent hSteps.2⟩
      have hBuilt : ∀ step ∈ builtSteps next (next :: scope) tag classified children,
          step ∈ steps := fun step hMem =>
        hSteps.1 step (mem_blockSteps.mpr (.inr (.inl hMem)))
      have hDeclare : ⟨next :: scope, .declare next tag.name⟩ ∈ steps :=
        hBuilt _ (List.mem_append_left _ List.mem_cons_self)
      rcases mem_blockSteps.mp hMem with rfl | hInside | rfl | rfl
      · exact placed_of_other nofun nofun
      · rcases List.mem_append.mp hInside with hOwn | hInner
        · exact placed_ownSteps hDeclare step hOwn
        · exact ihChildren hDeclare (fun step hMem => hBuilt step (List.mem_append_right _ hMem))
            step hInner
      · refine ⟨nofun, ?_⟩
        rintro p c ⟨⟩
        exact ⟨scope, above, tag.name, hParent, rfl, hDeclare⟩
      · exact placed_of_other nofun nofun

end LiveMarkup.Template
