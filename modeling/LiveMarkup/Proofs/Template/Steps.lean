import LiveMarkup.Proofs.Template.Correctness

/-!
# The steps of a program

The text of a program says one thing after another: a node is declared, a property of
it is set, a node is pushed into another, and in between blocks are opened and closed.
`Statement.acts` is that sequence, in which nothing tells any more what stands in what.
`stepsFrom` goes through it and keeps count of the blocks that are open, as a reader of
the text does, so that a step is an act with the blocks that it stands in. The text is
read off the steps: a step is written as far in as there are blocks around it.

## Main results

* `lines_steps` — **the lines of a program are those of its steps**.
* `balanced_acts` — the blocks of a program are closed, each behind what stands in it.
* `nested_moduleLines` — **so are those of a whole module**, the ones that the lines of
  a handler open included.
-/

namespace LiveMarkup.Template

open Markup (Document)

/-! ## Acts -/

/-- What a program does at one place in its text. -/
inductive Act where
  /-- Makes a bare node with the given tag. -/
  | declare (variableNumber : Nat) (tag : String)
  /-- Sets a property of a node. A handler is written in lines of its own, blocks of
  its own among them, and what they name is forgotten behind them. -/
  | set (variableNumber : Nat) (name : String) (source : Source)
  /-- Opens a block. -/
  | opening (head : Head)
  /-- Closes the block that was opened last. -/
  | closing
  /-- Appends a node to the children of another. -/
  | push (parent child : Nat)
  deriving Repr

/-- The lines of an act. -/
def Act.lines (runtime : String) (depth : Nat) : Act → List Line
  | declare n tag => (Statement.declare n tag).lines runtime depth
  | set n name source => (Statement.set n name source).lines runtime depth
  | opening head => [⟨depth, head.opening⟩]
  | closing => [⟨depth, "\x7d"⟩]
  | push parent child => (Statement.push parent child).lines runtime depth

/-- Whether an act neither opens nor closes a block. -/
def Act.isPlain : Act → Bool
  | opening _ | closing => false
  | _ => true

mutual

/-- The acts of a statement. -/
def Statement.acts : Statement → List Act
  | .declare n tag => [.declare n tag]
  | .set n name source => [.set n name source]
  | .block head body => .opening head :: (Statement.actsAll body ++ [.closing])
  | .push parent child => [.push parent child]

/-- The acts of statements in a row. -/
def Statement.actsAll : List Statement → List Act
  | [] => []
  | statement :: rest => statement.acts ++ Statement.actsAll rest

end

theorem actsAll_append (front back : List Statement) :
    Statement.actsAll (front ++ back) = Statement.actsAll front ++ Statement.actsAll back := by
  induction front with
  | nil => rfl
  | cons statement rest ih =>
      rw [List.cons_append, Statement.actsAll, Statement.actsAll, ih, List.append_assoc]

/-! ## Steps -/

/-- An act, and the blocks that it stands in, the innermost first. The lines that open
and close a block do not stand in it. -/
structure Step where
  scope : List Nat
  act : Act
  deriving Repr

/-- The lines of a step, which are indented by its blocks. -/
def Step.lines (runtime : String) (base : Nat) (step : Step) : List Line :=
  step.act.lines runtime (base + step.scope.length)

/-- The steps of acts in a row that stand in the blocks of the scope. Blocks are
numbered in the order in which they are opened; the next one has the given number. -/
def stepsFrom (block : Nat) (scope : List Nat) : List Act → List Step
  | [] => []
  | .opening head :: rest => ⟨scope, .opening head⟩ :: stepsFrom (block + 1) (block :: scope) rest
  | .closing :: rest => ⟨scope.tail, .closing⟩ :: stepsFrom block scope.tail rest
  | act :: rest => ⟨scope, act⟩ :: stepsFrom block scope rest

/-- The steps of a program, the blocks of which are numbered from one on. -/
def stepsOf (program : List Statement) : List Step :=
  stepsFrom 1 [] (Statement.actsAll program)

theorem stepsFrom_plain {act : Act} (h : act.isPlain = true) (block : Nat) (scope : List Nat)
    (rest : List Act) :
    stepsFrom block scope (act :: rest) = ⟨scope, act⟩ :: stepsFrom block scope rest := by
  cases act with
  | opening head => cases h
  | closing => cases h
  | _ => rw [stepsFrom] <;> simp

theorem map_act_stepsFrom (block : Nat) (scope : List Nat) (acts : List Act) :
    (stepsFrom block scope acts).map Step.act = acts := by
  induction acts generalizing block scope with
  | nil => rfl
  | cons act rest ih =>
      cases act with
      | opening head => rw [stepsFrom, List.map_cons, ih]
      | closing => rw [stepsFrom, List.map_cons, ih]
      | _ => rw [stepsFrom_plain rfl, List.map_cons, ih]

mutual

/-- Behind a statement the blocks are open that are open in front of it, and its lines
are those of its steps. -/
theorem exists_steps (runtime : String) (base : Nat) : (statement : Statement) → (block : Nat) →
    (scope : List Nat) → (rest : List Act) →
    ∃ steps next, stepsFrom block scope (statement.acts ++ rest) =
        steps ++ stepsFrom next scope rest ∧
      steps.flatMap (Step.lines runtime base) = statement.lines runtime (base + scope.length)
  | .declare n tag, block, scope, rest =>
      ⟨[⟨scope, .declare n tag⟩], block, stepsFrom_plain rfl block scope rest,
        List.flatMap_singleton ..⟩
  | .set n name source, block, scope, rest =>
      ⟨[⟨scope, .set n name source⟩], block, stepsFrom_plain rfl block scope rest,
        List.flatMap_singleton ..⟩
  | .push parent child, block, scope, rest =>
      ⟨[⟨scope, .push parent child⟩], block, stepsFrom_plain rfl block scope rest,
        List.flatMap_singleton ..⟩
  | .block head body, block, scope, rest => by
      -- the body leaves its own scope open, and the closing brace takes one block off it
      obtain ⟨steps, next, hSteps, hLines⟩ :=
        exists_stepsAll runtime base body (block + 1) (block :: scope) (.closing :: rest)
      refine ⟨⟨scope, .opening head⟩ :: (steps ++ [⟨scope, .closing⟩]), next, ?_, ?_⟩
      · rw [Statement.acts, List.cons_append, stepsFrom, List.append_assoc, List.singleton_append,
          hSteps, stepsFrom, List.tail_cons]
        simp only [List.cons_append, List.append_assoc, List.nil_append]
      · rw [List.length_cons, ← Nat.add_assoc] at hLines
        rw [Statement.lines, ← hLines, List.flatMap_cons, List.flatMap_append]
        rfl

theorem exists_stepsAll (runtime : String) (base : Nat) : (statements : List Statement) →
    (block : Nat) → (scope : List Nat) → (rest : List Act) →
    ∃ steps next, stepsFrom block scope (Statement.actsAll statements ++ rest) =
        steps ++ stepsFrom next scope rest ∧
      steps.flatMap (Step.lines runtime base) =
        Statement.linesAll runtime (base + scope.length) statements
  | [], block, scope, rest => ⟨[], block, rfl, rfl⟩
  | statement :: others, block, scope, rest => by
      obtain ⟨first, behind, hFirst, hLines⟩ := exists_steps runtime base statement block scope
        (Statement.actsAll others ++ rest)
      obtain ⟨steps, next, hSteps, hOthers⟩ := exists_stepsAll runtime base others behind scope rest
      refine ⟨first ++ steps, next, ?_, ?_⟩
      · rw [Statement.actsAll, List.append_assoc, hFirst, hSteps, List.append_assoc]
      · rw [List.flatMap_append, hLines, hOthers, Statement.linesAll]

end

/-- **The lines of a program are those of its steps**, one after another. -/
theorem lines_steps (runtime : String) (base : Nat) (program : List Statement) :
    Statement.linesAll runtime base program =
      (stepsOf program).flatMap (Step.lines runtime base) := by
  obtain ⟨steps, next, hSteps, hLines⟩ := exists_stepsAll runtime base program 1 [] []
  rw [List.append_nil, stepsFrom, List.append_nil] at hSteps
  rw [stepsOf, hSteps, hLines]
  rfl

/-! ## Blocks -/

/-- Every block that is opened is closed behind what stands in it, and none else. -/
inductive Balanced : List Act → Prop where
  | nil : Balanced []
  | plain {act : Act} {rest : List Act} (hPlain : act.isPlain = true) (hRest : Balanced rest) :
      Balanced (act :: rest)
  | block {head : Head} {body rest : List Act} (hBody : Balanced body) (hRest : Balanced rest) :
      Balanced (.opening head :: (body ++ .closing :: rest))

theorem Balanced.append {front back : List Act} (h : Balanced front) (hBack : Balanced back) :
    Balanced (front ++ back) := by
  induction h with
  | nil => exact hBack
  | plain hPlain _ ih => exact .plain hPlain ih
  | block hBody _ _ ih =>
      rw [List.cons_append, List.append_assoc, List.cons_append]
      exact .block hBody ih

mutual

/-- **The blocks of a program are closed**, each behind what stands in it. -/
theorem balanced_acts : (statement : Statement) → Balanced statement.acts
  | .declare _ _ => .plain rfl .nil
  | .set _ _ _ => .plain rfl .nil
  | .push _ _ => .plain rfl .nil
  | .block _ body => .block (balanced_actsAll body) .nil

theorem balanced_actsAll : (statements : List Statement) → Balanced (Statement.actsAll statements)
  | [] => .nil
  | statement :: rest => (balanced_acts statement).append (balanced_actsAll rest)

end

/-! ## Braces -/

/-- Whether a line opens a block: its last character is an opening brace. -/
def Line.Opens (line : Line) : Prop :=
  line.text.toList.getLast? = some '\x7b'

/-- Whether a line closes a block: its first character is a closing brace. -/
def Line.Closes (line : Line) : Prop :=
  line.text.toList.head? = some '\x7d'

/-- Every line that opens a block is followed by one as far in that closes it, and the
lines between them are like that again. -/
inductive Nested : List Line → Prop where
  | nil : Nested []
  | plain {line : Line} {rest : List Line} (hPlain : ¬ line.Opens) (hRest : Nested rest) :
      Nested (line :: rest)
  | block {opening closing : Line} {body rest : List Line} (hOpens : opening.Opens)
      (hCloses : closing.Closes) (hDepth : closing.depth = opening.depth) (hBody : Nested body)
      (hRest : Nested rest) : Nested (opening :: (body ++ closing :: rest))

theorem Nested.append {front back : List Line} (h : Nested front) (hBack : Nested back) :
    Nested (front ++ back) := by
  induction h with
  | nil => exact hBack
  | plain hPlain _ ih => exact .plain hPlain ih
  | block hOpens hCloses hDepth hBody _ _ ih =>
      rw [List.cons_append, List.append_assoc, List.cons_append]
      exact .block hOpens hCloses hDepth hBody ih

/-- Lines between a line that opens a block and the brace that closes it. -/
theorem Nested.enclosed {opening : Line} {body : List Line} (hBody : Nested body)
    (hOpens : opening.Opens) : Nested (opening :: (body ++ [⟨opening.depth, "\x7d"⟩])) :=
  .block hOpens (by simp [Line.Closes]) rfl hBody .nil

/-- What a line ends in tells whether it opens a block. -/
theorem opens_append_iff (depth : Nat) (text : String) {last : String} (hLast : last ≠ "") :
    (Line.mk depth (text ++ last)).Opens ↔ last.toList.getLast? = some '\x7b' := by
  rw [Line.Opens, String.toList_append, List.getLast?_append]
  cases hChar : last.toList.getLast? with
  | none => exact absurd (String.toList_eq_nil_iff.mp (List.getLast?_eq_none_iff.mp hChar)) hLast
  | some c => rfl

theorem opens_brace (depth : Nat) (text : String) : (Line.mk depth (text ++ " \x7b")).Opens :=
  (opens_append_iff depth text (by decide)).mpr (by simp)

/-- A line that ends in a semicolon opens nothing. -/
theorem nested_statement {depth : Nat} (text : String) {last : String} (hLast : last ≠ "")
    (hEnd : last.toList.getLast? = some ';') : Nested [⟨depth, text ++ last⟩] := by
  refine .plain (fun hOpens => ?_) .nil
  rw [opens_append_iff depth text hLast, hEnd] at hOpens
  cases hOpens

/-! ### The body of the function -/

theorem opens_opening (depth : Nat) (head : Head) : (Line.mk depth head.opening).Opens := by
  cases head with
  | once => simp [Line.Opens, Head.opening]
  | when condition => exact (opens_append_iff depth _ (by decide)).mpr (by simp)
  | each loop => exact (opens_append_iff depth _ (by decide)).mpr (by simp)

theorem nested_setLines (runtime : String) (depth n : Nat) (name : String) (source : Source) :
    Nested (setLines runtime depth n name source) := by
  cases source with
  | text value => exact nested_statement _ (by decide) (by simp)
  | expression code => exact nested_statement _ (by decide) (by simp)
  | handler code =>
      have hOpens : (Line.mk depth (setOpening runtime n name ++ runtime
          ++ "::EventHandler::new(\x7b")).Opens :=
        (opens_append_iff depth _ (by decide)).mpr (by simp)
      have hCapture :
          ¬ (Line.mk (depth + 1) "let this = ::std::clone::Clone::clone(self);").Opens := by
        simp [Line.Opens]
      have hMove : (Line.mk (depth + 1) "move || \x7b").Opens := by simp [Line.Opens]
      have hCloses : (Line.mk depth "\x7d)));").Closes := by simp [Line.Closes]
      have hStatement : Nested [⟨depth + 2, handlerCode code ++ ";"⟩] :=
        nested_statement _ (by decide) (by simp)
      exact .block hOpens hCloses rfl (.plain hCapture (hStatement.enclosed hMove)) .nil

mutual

theorem nested_lines (runtime : String) (depth : Nat) : (statement : Statement) →
    Nested (statement.lines runtime depth)
  | .declare n tag => nested_statement _ (by decide) (by simp)
  | .set n name source => nested_setLines runtime depth n name source
  | .push parent child => nested_statement _ (by decide) (by simp)
  | .block head body => by
      rw [Statement.lines, List.cons_append]
      exact (nested_linesAll runtime (depth + 1) body).enclosed (opens_opening depth head)

theorem nested_linesAll (runtime : String) (depth : Nat) : (statements : List Statement) →
    Nested (Statement.linesAll runtime depth statements)
  | [] => .nil
  | statement :: rest =>
      (nested_lines runtime depth statement).append (nested_linesAll runtime depth rest)

end

/-! ### The module -/

theorem nested_importLines (document : Document) : Nested (importLines document) := by
  rw [importLines]
  induction (document.imports.map importPath).filter (!·.isEmpty) with
  | nil => exact .nil
  | cons path rest ih =>
      exact Nested.append (nested_statement ("use " ++ path) (by decide) (by simp)) ih

theorem not_opens_originLine (origin : Option String) : ¬ (originLine origin).Opens := by
  cases origin with
  | none => simp [originLine, Line.Opens]
  | some file =>
      rw [originLine, opens_append_iff 0 _ (by decide)]
      simp

/-- **The blocks of a module are closed** if those in the body of its function are: the
module, the implementation and the function itself. -/
theorem nested_moduleLines (options : Options) (origin : Option String) (host name : String)
    (document : Document) {body : List Line} (hBody : Nested body) :
    Nested (frontLines options origin host name document ++ body ++ backLines) := by
  have hAllow : ¬ (Line.mk 0 "#[allow(unused_imports)]").Opens := by simp [Line.Opens]
  have hUse : ¬ (Line.mk 1 "use super::*;").Opens := by simp [Line.Opens]
  have hBlank : ¬ (Line.mk 0 "").Opens := by simp [Line.Opens]
  have hLints : ¬ (Line.mk 2 ("#[allow(unused_mut, unused_parens, unused_braces, unused_variables, "
      ++ "redundant_semicolons, clippy::all)]")).Opens := by simp [Line.Opens]
  have hFunction := hBody.enclosed ((opens_append_iff 2
    ("fn build_virtual_tree(&self) -> " ++ options.runtimePath) (by decide :
      "::VNode \x7b" ≠ "")).mpr (by simp))
  have hImplementation := (Nested.plain hLints hFunction).enclosed
    (opens_brace 1 ("impl " ++ options.runtimePath ++ "::Rebuild for " ++ host))
  have hModule := (Nested.plain hUse ((nested_importLines document).append
    (.plain hBlank hImplementation))).enclosed (opens_brace 0 ("mod " ++ name))
  have hWhole := Nested.plain (not_opens_originLine origin) (.plain hAllow hModule)
  simpa [frontLines, backLines] using hWhole

end LiveMarkup.Template
