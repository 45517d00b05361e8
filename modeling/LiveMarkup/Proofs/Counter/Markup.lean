import LiveMarkup.Counter
import LiveMarkup.Proofs.Markup.Flat
import LiveMarkup.Proofs.Template.Correctness
import LiveMarkup.Proofs.Template.Layouts

/-!
# The markup of the counter

The view of the counter is written in markup and compiled. Here the text is taken as
the document that it is a layout of, and the program that it compiles to is run: it
builds `Counter.view`.

## Main results

* `documentText_markup` — the markup is a layout of a panel with five rows.
* `exists_program` — **the compiled markup builds the view** of every state.
-/

namespace LiveMarkup.Counter

open Markup (PlainAttribute PlainTag PlainRow Document DocumentText)
open Template (Interpretation Items Options Statement)

/-! ## The text and its parts -/

/-- The pieces of the markup, a line each but for the loop. -/
def markupPieces : List String :=
  ["<?xml version=\"1.0\" encoding=\"utf-8\"?>\n",
    "<!-- Counter view: a label, two buttons and an optional history list. -->\n",
    "<StackPanel Orientation=\"Vertical\">\n",
    "    <TextBlock _Text='format!(\"Count: \x7b\x7d\", self.count())'/>\n",
    "    <Button Content=\"Increment\" _click=\"this.increment()\"/>\n",
    "    <Button Content=\"History\" _click=\"this.toggle_history()\"/>\n",
    "    <TextBlock _if=\"self.history_shown()\" Text=\"History\" FontWeight=\"Bold\"/>\n",
    "    <TextBlock _foreach='entry of ",
    "self.history.borrow().iter().filter(|_| self.history_shown())'\n",
    "               _Text=\"entry.as_str()\"/>\n",
    "</StackPanel>\n"]

/-- The markup of the counter. -/
def markup : String :=
  String.join markupPieces

/-- The expression for the text above the buttons. -/
def labelCode : String := "format!(\"Count: \x7b\x7d\", self.count())"

/-- The statement of the first button. -/
def incrementCode : String := "this.increment()"

/-- The statement of the second button. -/
def toggleCode : String := "this.toggle_history()"

/-- The condition that the heading depends on. -/
def shownCode : String := "self.history_shown()"

/-- The collection that there is a row for every item of. -/
def entriesCode : String := "self.history.borrow().iter().filter(|_| self.history_shown())"

/-- The loop through this collection. -/
def loopCode : String :=
  "entry of self.history.borrow().iter().filter(|_| self.history_shown())"

/-- The expression for the text of a row. -/
def entryCode : String := "entry.as_str()"

/-- An attribute behind a space. -/
def spaced (name : String) (quote : Char) (value : String) : PlainAttribute :=
  ⟨" ", name, quote, value⟩

/-- An element on a line of its own. -/
def indented (name : String) (attributes : List PlainAttribute) : PlainRow :=
  ⟨"\n    ", name, attributes⟩

def panelTag : PlainTag :=
  ⟨"StackPanel", [spaced "Orientation" '"' "Vertical"]⟩

def labelRow : PlainRow :=
  indented "TextBlock" [spaced "_Text" '\'' labelCode]

def incrementRow : PlainRow :=
  indented "Button" [spaced "Content" '"' "Increment", spaced "_click" '"' incrementCode]

def historyRow : PlainRow :=
  indented "Button" [spaced "Content" '"' "History", spaced "_click" '"' toggleCode]

def headingRow : PlainRow :=
  indented "TextBlock" [spaced "_if" '"' shownCode, spaced "Text" '"' "History",
    spaced "FontWeight" '"' "Bold"]

def entryRow : PlainRow :=
  indented "TextBlock" [spaced "_foreach" '\'' loopCode,
    ⟨"\n               ", "_Text", '"', entryCode⟩]

def rows : List PlainRow :=
  [labelRow, incrementRow, historyRow, headingRow, entryRow]

/-- The declaration in front. -/
def declaration : List Char :=
  ['<', '?', 'x', 'm', 'l', ' '] ++
    ("version=\"1.0\" encoding=\"utf-8\"".toList ++ ['?', '>'])

/-- The comment behind it. -/
def comment : List Char :=
  ['<', '!', '-', '-'] ++
    (" Counter view: a label, two buttons and an optional history list. ".toList ++
      ['-', '-', '>'])

/-- The root element. -/
def root : List Char :=
  panelTag.text ++ (['>'] ++ ((rows.flatMap PlainRow.text ++ ['\n']) ++
    (['<', '/'] ++ (panelTag.name.toList ++ ([] ++ ['>'])))))

/-- The document that the markup is a layout of. -/
def document : Document where
  instructions := []
  root := panelTag.meant 3
  content := Markup.nodesOfRows rows [4, 5, 6, 7, 8]

theorem toList_markup : markup.toList =
    [] ++ (declaration ++ ((['\n'] ++ (comment ++ ['\n'])) ++ (root ++ ['\n']))) := by
  rw [markup, String.toList_join]
  unfold markupPieces declaration comment root rows labelRow incrementRow historyRow headingRow
    entryRow panelTag indented spaced labelCode incrementCode toggleCode shownCode loopCode
    entryCode
  simp only [List.flatMap_cons, List.flatMap_nil, PlainRow.text, PlainTag.text,
    PlainAttribute.text, -String.reduceToList]
  -- A literal is made of its characters; to take it apart again is slow.
  repeat rw [String.toList_ofList]
  decide +kernel

/-- **The markup is a layout of the document.** -/
theorem documentText_markup : DocumentText markup.toList document := by
  have hDeclaration : Markup.DeclarationText declaration :=
    .mk (by decide) ⟨rfl, by rw [String.toList_ofList]; decide +kernel⟩
  have hComment : Markup.CommentText comment
      " Counter view: a label, two buttons and an optional history list. ".toList :=
    ⟨rfl, by rw [String.toList_ofList]; decide +kernel⟩
  have hFront : Markup.AsidesText (['\n'] ++ (comment ++ ['\n'])) [] :=
    .comment (by decide) hComment (.gap (by decide))
  have hRows : ∀ row ∈ rows, row.IsLegal := by decide +kernel
  have hPanel : panelTag.IsLegal := by decide +kernel
  have hLine : Markup.lineAfter 1 (declaration ++ (['\n'] ++ (comment ++ ['\n']))) = 3 := by
    unfold declaration comment
    repeat rw [String.toList_ofList]
    decide +kernel
  have hTagLine : Markup.lineAfter 3 panelTag.text = 3 := by decide +kernel
  have hLines : Markup.linesOfRows 3 rows = [4, 5, 6, 7, 8] := by decide +kernel
  have hBlank : ['\n'] ≠ [] ∧ Markup.IsBlank ['\n'] := by decide
  have hContent := Markup.contentText_of_rows hRows hBlank 3
  rw [hLines, ← hTagLine] at hContent
  have hRoot : Markup.ElementText 3 root (panelTag.meant 3) document.content :=
    panelTag.elementText hPanel hContent
  rw [← hLine] at hRoot
  rw [toList_markup]
  exact .mk (.inl rfl) (.inl hDeclaration) hFront hRoot (.gap (by decide))

/-! ## What the code means -/

variable {H : Type}

/-- What the code in the markup means for a state of the counter. -/
def interpretation (handlerOf : Action → H) (counter : Counter) : Interpretation String H where
  itemName := id
  condition := fun _ code => code == shownCode && counter.historyShown
  collection := fun _ code =>
    if code = entriesCode then counter.history.filter fun _ => counter.historyShown else []
  value := fun items code =>
    if code = labelCode then .text ("Count: " ++ toString counter.count)
    else if code = entryCode then .text ((items.lookup "entry").getD "")
    else .text ""
  handler := fun _ code =>
    handlerOf (if code = toggleCode then .toggleHistory else .increment)

/-- The trees of an element without content, from what its attributes mean. -/
theorem ofNode_leaf {options : Options} {tag : Markup.Tag} {classified : Template.Classified}
    (h : Template.classify options tag = .ok classified) {I : Type} (interp : Interpretation I H)
    (items : Items I) :
    Template.Meaning.ofNode interp options (.element tag []) items =
      ((Template.Head.ofDirective classified.directive).rounds interp items).map fun round =>
        .node tag.name (Properties.ofList (classified.bindings.map fun binding =>
          (binding.source.1, binding.source.2.value interp (round ++ items)))) [] := by
  rw [Template.Meaning.ofNode, ← Template.rounds_ofDirective h, List.map_map]
  refine List.map_congr_left fun round _ => ?_
  rw [Function.comp_apply, Template.properties_of_bindings h]
  rfl

/-- What the attributes of the elements mean, in document order. -/
def meanings : List Template.Classified :=
  [⟨none, [.literal "Orientation" "Vertical"], none⟩,
    ⟨none, [.dynamic "Text" labelCode], none⟩,
    ⟨none, [.literal "Content" "Increment", .event "click" incrementCode], none⟩,
    ⟨none, [.literal "Content" "History", .event "click" toggleCode], none⟩,
    ⟨some (.when shownCode), [.literal "Text" "History", .literal "FontWeight" "Bold"], none⟩,
    ⟨some (.each ⟨"entry", entriesCode⟩), [.dynamic "Text" entryCode], none⟩]

theorem classify_tags :
    document.tags.map (fun tag => (Template.classify .standard tag).toOption) =
      meanings.map some := by
  decide +kernel

/-- **The attributes of the elements have these meanings.** -/
theorem classify_tag {index : Nat} {tag : Markup.Tag} {classified : Template.Classified}
    (hTag : document.tags[index]? = some tag) (hMeaning : meanings[index]? = some classified) :
    Template.classify .standard tag = .ok classified := by
  have hBoth := congrArg (·[index]?) classify_tags
  simp only [List.getElem?_map, hTag, hMeaning, Option.map_some, Option.some.injEq] at hBoth
  exact Template.eq_ok_of_toOption hBoth

theorem trees_heading (handlerOf : Action → H) (counter : Counter) :
    Template.Meaning.ofNode (interpretation handlerOf counter) .standard
        (.element (headingRow.tag.meant 7) []) [] =
      if counter.historyShown then [(textBlock "History").set "FontWeight" (.text "Bold")]
      else [] := by
  rw [ofNode_leaf (classify_tag (show document.tags[4]? = _ from rfl) rfl)]
  have hCondition : (interpretation handlerOf counter).condition [] shownCode =
      counter.historyShown := by simp [interpretation]
  simp only [Template.Head.ofDirective, Template.Head.rounds, hCondition]
  cases counter.historyShown <;> rfl

theorem trees_entry (handlerOf : Action → H) (counter : Counter) :
    Template.Meaning.ofNode (interpretation handlerOf counter) .standard
        (.element (entryRow.tag.meant 8) []) [] =
      if counter.historyShown then counter.history.map textBlock else [] := by
  rw [ofNode_leaf (classify_tag (show document.tags[5]? = _ from rfl) rfl)]
  have hCollection : (interpretation handlerOf counter).collection [] entriesCode =
      if counter.historyShown then counter.history else [] := by
    cases hShown : counter.historyShown <;> simp [interpretation, hShown]
  simp only [Template.Head.ofDirective, Template.Head.rounds, hCollection]
  cases counter.historyShown with
  | false => rfl
  | true =>
      have hValue : ∀ entry, (interpretation handlerOf counter).value [("entry", entry)] entryCode =
          .text entry := by
        intro entry
        have hOther : entryCode ≠ labelCode := by decide
        simp [interpretation, hOther]
      simp only [if_true, List.map_map]
      refine List.map_congr_left fun entry _ => ?_
      exact congrArg
        (fun value => VirtualTree.node "TextBlock" (Properties.empty.set "Text" value) [])
        (hValue entry)

/-- **The document means the view** of every state. -/
theorem ofDocument_document (handlerOf : Action → H) (counter : Counter) :
    Template.Meaning.ofDocument (interpretation handlerOf counter) .standard document =
      counter.view handlerOf := by
  have hContent : document.content = [.element (labelRow.tag.meant 4) [],
      .element (incrementRow.tag.meant 5) [], .element (historyRow.tag.meant 6) [],
      .element (headingRow.tag.meant 7) [], .element (entryRow.tag.meant 8) []] := rfl
  have hPanel := Template.properties_of_bindings
    (classify_tag (show document.tags[0]? = some (panelTag.meant 3) from rfl) rfl)
    (interpretation handlerOf counter) []
  have hRoot : document.root = panelTag.meant 3 := rfl
  rw [Template.Meaning.ofDocument, hContent, hRoot, ← hPanel]
  have hLabel := classify_tag (show document.tags[1]? = some (labelRow.tag.meant 4) from rfl) rfl
  have hIncrement :=
    classify_tag (show document.tags[2]? = some (incrementRow.tag.meant 5) from rfl) rfl
  have hHistory :=
    classify_tag (show document.tags[3]? = some (historyRow.tag.meant 6) from rfl) rfl
  simp only [Template.Meaning.ofNodes, ofNode_leaf hLabel, ofNode_leaf hIncrement,
    ofNode_leaf hHistory, trees_heading, trees_entry]
  rw [view]
  cases counter.historyShown with
  | false => rfl
  | true =>
      simp only [if_true, List.append_nil]
      rfl

/-! ## The program -/

theorem exists_meaning {tag : Markup.Tag} (h : tag ∈ document.tags) :
    ∃ classified ∈ meanings, Template.classify .standard tag = .ok classified := by
  obtain ⟨index, hIndex⟩ := List.getElem?_of_mem h
  have hLength : document.tags.length = meanings.length := rfl
  have hLt : index < meanings.length := hLength ▸ (List.getElem?_eq_some_iff.mp hIndex).1
  exact ⟨_, List.getElem_mem hLt, classify_tag hIndex (List.getElem?_eq_getElem hLt)⟩

theorem no_fault : ∀ tag ∈ document.tags, Template.fault? .standard tag = none := by
  intro tag hTag
  obtain ⟨classified, -, hClassified⟩ := exists_meaning hTag
  exact Template.fault?_eq_none_iff.mpr ⟨classified, hClassified⟩

theorem item_of_mem_loops {loop : Template.Loop} (h : loop ∈ Template.loopsOf document.content) :
    loop.item = "entry" := by
  obtain ⟨tag, hTag, hLoop⟩ := List.mem_filterMap.mp h
  obtain ⟨classified, hMem, hClassified⟩ := exists_meaning (List.mem_cons_of_mem document.root hTag)
  have hDirective : classified.directive = some (.each loop) := by
    rw [Template.classify_directive hClassified, hLoop]
    rfl
  have hAll : ∀ classified ∈ meanings, ∀ loop,
      classified.directive = some (.each loop) → loop.item = "entry" := by
    simp [meanings]
  exact hAll classified hMem loop hDirective

theorem itemsApart_document (handlerOf : Action → H) (counter : Counter) :
    Template.ItemsApart (interpretation handlerOf counter) document.content := by
  intro loop hLoop n hEq
  have hItem : loop.item = Template.variableName n := hEq
  rw [item_of_mem_loops hLoop] at hItem
  have hChars := congrArg String.toList hItem
  simp [Template.variableName] at hChars

/-- Generated code is the text of the program of its plan. -/
theorem source_viewOf (options : Options) (origin : Option String) (host identifier : String)
    (document : Document) (plan : Template.Plan) :
    (Template.viewOf options origin host identifier document plan).source =
      Template.renderLines
        (Template.frontLines options origin host (Template.moduleName identifier) document
          ++ (Statement.linesAll options.runtimePath 3 plan.program
            ++ [⟨3, Template.variableName 0⟩])
          ++ Template.backLines) := rfl

/-- The markup compiles, for the counter and without options, to the text of the
program. -/
def IsMarkupProgram (program : List Statement) : Prop :=
  ∃ view, Template.compile .standard "Counter" markup = .ok view ∧
    view.source = Template.renderLines
      (Template.frontLines .standard none "Counter" view.moduleName document
        ++ (Statement.linesAll Options.standard.runtimePath 3 program
          ++ [⟨3, Template.variableName 0⟩])
        ++ Template.backLines)

/-- **The compiled markup builds the view** of every state. -/
theorem exists_program : ∃ program, IsMarkupProgram program ∧
    ∀ (H : Type) (handlerOf : Action → H) (counter : Counter),
      Template.runBody (interpretation handlerOf counter) program =
        some (counter.view handlerOf) := by
  have hHost : Code.typeName? "Counter" = some "Counter" := by decide +kernel
  obtain ⟨plan, hPlan⟩ := Template.exists_plan_iff.mpr no_fault
  have hCompile := Template.compile_of_layout .standard hHost documentText_markup
  rw [hPlan] at hCompile
  refine ⟨plan.program, ⟨_, hCompile, source_viewOf ..⟩, ?_⟩
  intro H handlerOf counter
  rw [Template.runBody_program hPlan (itemsApart_document handlerOf counter), ofDocument_document]

end LiveMarkup.Counter
