import LiveMarkup.Proofs.Code.Quoting
import LiveMarkup.Proofs.Template.Layouts
import LiveMarkup.Proofs.Template.Numbering
import LiveMarkup.Proofs.Text.Plain

/-!
# Literal attributes survive the compiler

An attribute whose name does not begin with the low line binds its value as a
text. On the way into the code the value is decoded, from whatever characters and
references it was spelled with, and then quoted as a string literal. A reader of
the code gets the value back.

The lines of an element stand in one piece among the lines of the program: its
declaration first, and then the lines of its attributes in document order.

## Main results

* `exists_lines_of_tag` — where the lines of an element stand.
* `bindingOf_literal` — what binds its value as a text.
* `compile_literal` — **a literal attribute is one line, in which its name and its
  value are read back**.
-/

namespace LiveMarkup.Template

open Code (stringLiteral? stringLiteral?_literal line_feed_not_mem_literal)
open Markup (Attribute Tag Node Document DocumentText)

/-! ## The lines of an element -/

/-- The lines that set what an attribute binds to the node in variable `n`; a
directive binds nothing. -/
def attributeLines (options : Options) (depth n : Nat) (a : Attribute) : List Line :=
  if isDirective a then []
  else
    setLines options.runtimePath depth n (bindingOf options a).source.1
      (bindingOf options a).source.2

/-- The lines that build the node of an element in variable `n`, without those of
the elements in it. -/
def elementLines (options : Options) (depth n : Nat) (tag : Tag) : List Line :=
  (Statement.declare n tag.name).lines options.runtimePath depth ++
    tag.attributes.flatMap (attributeLines options depth n)

theorem linesAll_append (runtime : String) (depth : Nat) (front back : List Statement) :
    Statement.linesAll runtime depth (front ++ back) =
      Statement.linesAll runtime depth front ++ Statement.linesAll runtime depth back := by
  induction front with
  | nil => rfl
  | cons statement rest ih =>
      rw [List.cons_append, Statement.linesAll, Statement.linesAll, ih, List.append_assoc]

/-- The bindings of an element are set by the lines of its attributes. -/
theorem linesAll_setsOf (options : Options) (depth n : Nat) (attributes : List Attribute) :
    Statement.linesAll options.runtimePath depth
        (setsOf n ((attributes.filter (!isDirective ·)).map (bindingOf options))) =
      attributes.flatMap (attributeLines options depth n) := by
  induction attributes with
  | nil => rfl
  | cons a rest ih =>
      rw [List.flatMap_cons, attributeLines, ← ih]
      by_cases hDirective : isDirective a = true
      · rw [List.filter_cons_of_neg (by simp [hDirective]), if_pos hDirective, List.nil_append]
      · rw [List.filter_cons_of_pos (by simp [hDirective]), if_neg hDirective]
        rfl

/-- An element is built by its own lines and then by those of its children. -/
theorem linesAll_build {options : Options} {tag : Tag} {classified : Classified}
    (hTag : classify options tag = .ok classified) (depth next : Nat) (children : List Plan) :
    Statement.linesAll options.runtimePath depth
        (Plan.build next (.element tag classified children)) =
      elementLines options depth next tag ++
        Statement.linesAll options.runtimePath depth
          (Plan.buildAll next (next + 1) children) := by
  rw [build_element, Statement.linesAll, linesAll_append, classify_bindings hTag, linesAll_setsOf,
    elementLines, List.append_assoc]

/-- Among the lines of the children of a node are those of the first child, those
of its own children, and those of the other children. -/
theorem lines_infix_buildAll {options : Options} {tag : Tag} {classified : Classified}
    (hTag : classify options tag = .ok classified) (depth parent next : Nat)
    (children rest : List Plan) {lines : List Line}
    (hLines : lines = Statement.linesAll options.runtimePath depth
      (Plan.buildAll parent next (.element tag classified children :: rest))) :
    elementLines options (depth + 1) next tag <:+: lines ∧
      Statement.linesAll options.runtimePath (depth + 1)
        (Plan.buildAll next (next + 1) children) <:+: lines ∧
      Statement.linesAll options.runtimePath depth
        (Plan.buildAll parent (next + (1 + Plan.sizeAll children)) rest) <:+: lines := by
  rw [Plan.buildAll, Statement.linesAll, Statement.lines, linesAll_append, linesAll_build hTag,
    Plan.size] at hLines
  generalize Statement.linesAll options.runtimePath depth _ = others at hLines ⊢
  generalize Statement.linesAll options.runtimePath (depth + 1) (Plan.buildAll ..) = inner
    at hLines ⊢
  generalize Statement.linesAll options.runtimePath (depth + 1) [_] = pushing at hLines
  subst hLines
  let head : Line := ⟨depth, (Head.ofDirective classified.directive).opening⟩
  let close : Line := ⟨depth, "\x7d"⟩
  refine ⟨⟨[head], inner ++ (pushing ++ (close :: others)), ?_⟩,
    ⟨head :: elementLines options (depth + 1) next tag, pushing ++ (close :: others), ?_⟩,
    (List.suffix_append _ _).isInfix⟩
  · simp [head, close, Plan.classified]
  · simp [head, close, Plan.classified]

/-- **The lines of an element stand in one piece** among the lines of the elements
that it is one of, or that it lies in. -/
theorem exists_lines_of_tag {options : Options} {nodes : List Node} {plans : List Plan}
    (hPlans : Plan.ofNodes options nodes = .ok plans) {i : Nat} {tag : Tag}
    (hTag : (Node.tagsAll nodes)[i]? = some tag) (depth parent next : Nat) :
    ∃ level, elementLines options level (next + i) tag <:+:
      Statement.linesAll options.runtimePath depth (Plan.buildAll parent next plans) := by
  induction nodes using Node.induction_elements generalizing plans i depth parent next with
  | nil => cases hTag
  | skip node rest hNode ih =>
      rw [ofNodes_skip options hNode] at hPlans
      rw [tags_skip hNode] at hTag
      exact ih hPlans hTag depth parent next
  | element inner content rest ihContent ihRest =>
      obtain ⟨classified, children, others, hInner, hChildren, hOthers, rfl⟩ :=
        ofNodes_element_ok hPlans
      obtain ⟨hSelf, hBelow, hBehind⟩ :=
        lines_infix_buildAll hInner depth parent next children others rfl
      rw [sizeAll_of_ofNodes hChildren] at hBehind
      rw [Node.tagsAll_element] at hTag
      cases i with
      | zero =>
          cases hTag
          exact ⟨depth + 1, hSelf⟩
      | succ i =>
          rw [List.getElem?_cons_succ, List.getElem?_append] at hTag
          split at hTag
          · obtain ⟨level, hFound⟩ := ihContent hChildren hTag (depth + 1) next (next + 1)
            rw [Nat.add_right_comm] at hFound
            exact ⟨level, hFound.trans hBelow⟩
          · obtain ⟨level, hFound⟩ := ihRest hOthers hTag depth parent
              (next + (1 + (Node.tagsAll content).length))
            have hNumber : next + (1 + (Node.tagsAll content).length) +
                (i - (Node.tagsAll content).length) = next + (i + 1) := by omega
            rw [hNumber] at hFound
            exact ⟨level, hFound.trans hBehind⟩

/-- The lines of an element stand in one piece in the code of its document. -/
theorem exists_lines_of_document {options : Options} {document : Document} {plan : Plan}
    (hPlan : Plan.ofDocument options document = .ok plan) {i : Nat} {tag : Tag}
    (hTag : document.tags[i]? = some tag) (origin : Option String) (host name : String) :
    ∃ level, elementLines options level i tag <:+:
      moduleLines options origin host name document plan := by
  have hBody : bodyLines options plan <:+: moduleLines options origin host name document plan :=
    ⟨_, _, rfl⟩
  have hProgram : Statement.linesAll options.runtimePath 3 plan.program <:+:
      moduleLines options origin host name document plan :=
    (List.prefix_append _ _).isInfix.trans hBody
  obtain ⟨classified, children, hRoot, hChildren, rfl⟩ := ofDocument_ok hPlan
  rw [Plan.program, linesAll_build hRoot] at hProgram
  rw [Document.tags_eq] at hTag
  cases i with
  | zero =>
      cases hTag
      exact ⟨3, (List.prefix_append _ _).isInfix.trans hProgram⟩
  | succ i =>
      rw [List.getElem?_cons_succ] at hTag
      obtain ⟨level, hFound⟩ := exists_lines_of_tag hChildren hTag 3 0 1
      rw [Nat.add_comm] at hFound
      exact ⟨level, (hFound.trans (List.suffix_append _ _).isInfix).trans hProgram⟩

/-! ## Literal attributes -/

theorem toLower_eq_low_line {c : Char} (h : c.toLower = '_') : c = '_' := by
  unfold Char.toLower at h
  split at h
  · rename_i hUpper
    have hCode := congrArg (fun other => other.val.toNat) h
    have hLow : 65 ≤ c.val.toNat := hUpper.1
    have hHigh : c.val.toNat ≤ 90 := hUpper.2
    have hSum : (c.val.toNat + 32) % 2 ^ 32 = 95 := hCode
    omega
  · exact h

/-- A name that does not begin with the low line is not that of a directive. -/
theorem isDirective_literal {name : String} (h : name.toList.head? ≠ some '_') (value : String) :
    isDirective ⟨name, value⟩ = false := by
  have hFold : ∀ rest, Text.equalFold name (String.ofList ('_' :: rest)) = false := by
    intro rest
    rw [Text.equalFold, beq_eq_false_iff_ne]
    intro hEq
    cases hChars : name.toList with
    | nil => simp [hChars] at hEq
    | cons c tail =>
        rw [hChars] at h hEq
        simp at hEq
        exact h (by rw [toLower_eq_low_line hEq.1]; rfl)
  exact Bool.or_eq_false_iff.mpr ⟨hFold ['i', 'f'], hFold "foreach".toList⟩

/-- **An attribute binds its value as a text** if its name does not begin with the
low line. -/
theorem bindingOf_literal (options : Options) {name : String}
    (h : name.toList.head? ≠ some '_') (value : String) :
    bindingOf options ⟨name, value⟩ = .literal name value := by
  unfold bindingOf
  split
  · rename_i hChars
    rw [hChars] at h
    exact absurd rfl h
  · rfl

/-- The statement that sets a text on the node in a variable, for code that finds
its types where the options say if they are told nothing. -/
def literalStatement (n : Nat) (name value : String) : String :=
  variableName n ++ ".set(" ++ Text.literal name ++ ", ::trellis_runtime::PropValue::from("
    ++ Text.literal value ++ "));"

theorem line_feed_not_mem_variableName (n : Nat) : '\n' ∉ (variableName n).toList := by
  rw [variableName, String.toList_append, List.mem_append, not_or]
  refine ⟨by decide, ?_⟩
  intro hMem
  exact absurd (Text.isDigit_of_mem_toString hMem) (by decide)

theorem line_feed_not_mem_literalStatement (n : Nat) (name value : String) :
    '\n' ∉ (literalStatement n name value).toList := by
  simp only [literalStatement, String.toList_append, List.mem_append, not_or]
  exact ⟨⟨⟨⟨⟨line_feed_not_mem_variableName n, by decide⟩, line_feed_not_mem_literal name⟩,
    by decide⟩, line_feed_not_mem_literal value⟩, by decide⟩

/-- A literal attribute has one line. -/
theorem attributeLines_literal {options : Options}
    (hRuntime : options.runtimePath = Options.standard.runtimePath) {name : String}
    (hName : name.toList.head? ≠ some '_') (value : String) (depth n : Nat) :
    attributeLines options depth n ⟨name, value⟩ =
      [⟨depth, literalStatement n name value⟩] := by
  rw [attributeLines, isDirective_literal hName, bindingOf_literal options hName, hRuntime]
  simp [Binding.source, setLines, setOpening, literalStatement, Options.standard,
    String.append_assoc]

/-- **A literal attribute is one line, in which its name and its value are read
back.** The text is any layout of a document that is accepted, so the value may be
spelled in any way. The line stands where the attribute does, between those of the
attributes around it, and it sets the property of the element's own node. -/
theorem compile_literal {options : Options} {host source : String} {document : Document}
    {n : Nat} {tag : Tag} {front back : List Attribute} {name value : String}
    (hRuntime : options.runtimePath = Options.standard.runtimePath)
    (hHost : (Code.typeName? host).isSome = true)
    (hText : DocumentText source.toList document)
    (hFaults : ∀ tag ∈ document.tags, fault? options tag = none)
    (hTag : document.tags[n]? = some tag)
    (hAttributes : tag.attributes = front ++ ⟨name, value⟩ :: back)
    (hName : name.toList.head? ≠ some '_') :
    ∃ view lines depth, compile options host source = .ok view ∧
      view.source = renderLines lines ∧
      (Statement.declare n tag.name).lines options.runtimePath depth ++
        (front.flatMap (attributeLines options depth n) ++
          ⟨depth, literalStatement n name value⟩ ::
            back.flatMap (attributeLines options depth n)) <:+: lines ∧
      '\n' ∉ (literalStatement n name value).toList ∧
      ∀ rest, stringLiteral? ((Text.literal name).toList ++ rest) = some (name, rest) ∧
        stringLiteral? ((Text.literal value).toList ++ rest) = some (value, rest) := by
  obtain ⟨identifier, hIdentifier⟩ := Option.isSome_iff_exists.mp hHost
  obtain ⟨plan, hPlan⟩ := exists_plan_iff.mpr hFaults
  have hCompile := compile_of_layout options hIdentifier hText
  rw [hPlan] at hCompile
  obtain ⟨depth, hLines⟩ :=
    exists_lines_of_document hPlan hTag none host (moduleName identifier)
  rw [elementLines, hAttributes, List.flatMap_append, List.flatMap_cons,
    attributeLines_literal hRuntime hName] at hLines
  exact ⟨_, _, depth, hCompile, rfl, hLines, line_feed_not_mem_literalStatement n name value,
    fun rest => ⟨stringLiteral?_literal name rest, stringLiteral?_literal value rest⟩⟩

/-- A value with a quote, NUL in front of a digit, a backslash and a line feed, some
of which are spelled as references. -/
theorem compile_literal_spelled :
    let source := "<a t='\"&#0;7\\&#xa;'/>"
    let value := "\"\x007\\\n"
    DocumentText source.toList ⟨[], ⟨"a", [⟨"t", value⟩], 1⟩, []⟩ ∧
      literalStatement 0 "t" value =
        "__v0.set(\"t\", ::trellis_runtime::PropValue::from(\"\\\"\\x007\\\\\\n\"));" ∧
      ∃ view lines depth, compile .standard "Host" source = .ok view ∧
        view.source = renderLines lines ∧
        ⟨depth, literalStatement 0 "t" value⟩ ∈ lines ∧
        stringLiteral? (Text.literal value).toList = some (value, []) := by
  intro source value
  have hName : ∀ c, Markup.Grammar.isNameStart c = true → Markup.IsName [c] := by
    intro c hStart
    exact ⟨c, [], rfl, hStart, fun _ hMem => nomatch hMem⟩
  have hNul : Markup.IsReference ['#', '0'] '\x00' :=
    .decimal (.digit ⟨by decide, .inl rfl⟩)
  have hFeed : Markup.IsReference ['#', 'x', 'a'] '\n' :=
    .hexadecimal (.inl rfl) (.digit ⟨by decide, .inl rfl⟩)
  have hValue : Markup.Spells (Markup.LegalInValue '\'')
      ['"', '&', '#', '0', ';', '7', '\\', '&', '#', 'x', 'a', ';']
      ['"', '\x00', '7', '\\', '\n'] :=
    .raw (by decide) (.reference hNul (.raw (by decide) (.raw (by decide)
      (.reference hFeed .nil))))
  have hNoGap : Markup.IsGap [] := by decide
  have hTag : Markup.TagText (['<'] ++ (['a'] ++ (([' '] ++ (['t'] ++ ([] ++ (['='] ++ ([] ++
      (['\''] ++ (['"', '&', '#', '0', ';', '7', '\\', '&', '#', 'x', 'a', ';'] ++
        ['\''])))))) ++ []) ++ []))) ['a'] [⟨"t", value⟩] := by
    refine .mk (hName 'a' (by decide)) (.cons ?_ .nil) (by decide) hNoGap
    exact .mk (by decide) (by decide) (hName 't' (by decide)) hNoGap hNoGap (.inr rfl) hValue
  have hChars : source.toList = ['<', 'a', ' ', 't', '=', '\'', '"', '&', '#', '0', ';', '7',
      '\\', '&', '#', 'x', 'a', ';', '\'', '/', '>'] := by decide
  have hText : DocumentText source.toList ⟨[], ⟨"a", [⟨"t", value⟩], 1⟩, []⟩ := by
    rw [hChars]
    refine .mk (.inl rfl) (.inr ⟨rfl, ?_⟩) (.gap hNoGap) (.mk hTag .nil .itself) (.gap hNoGap)
    rintro ⟨c, hSpace, hPrefix⟩
    simp at hPrefix
  have hRuntime : Options.standard.runtimePath = Options.standard.runtimePath := rfl
  have hHost : (Code.typeName? "Host").isSome = true := by decide +kernel
  have hFaults : ∀ tag ∈ (⟨[], ⟨"a", [⟨"t", value⟩], 1⟩, []⟩ : Document).tags,
      fault? .standard tag = none := by decide +kernel
  have hFirst : (⟨[], ⟨"a", [⟨"t", value⟩], 1⟩, []⟩ : Document).tags[0]? =
      some ⟨"a", [⟨"t", value⟩], 1⟩ := rfl
  have hAttributes : [(⟨"t", value⟩ : Attribute)] = [] ++ ⟨"t", value⟩ :: [] := rfl
  obtain ⟨view, lines, depth, hCompile, hSource, hLines, -, hRead⟩ :=
    compile_literal hRuntime hHost hText hFaults hFirst hAttributes (by decide)
  refine ⟨hText, by decide +kernel, view, lines, depth, hCompile, hSource, ?_, ?_⟩
  · exact hLines.subset (by simp)
  · have hValue := (hRead []).2
    rwa [List.append_nil] at hValue

end LiveMarkup.Template
