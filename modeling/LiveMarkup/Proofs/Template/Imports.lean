import LiveMarkup.Proofs.Markup.Soundness
import LiveMarkup.Proofs.Template.ModuleNames
import Mathlib.Algebra.Order.BigOperators.Group.List
import Mathlib.Algebra.Order.Group.Nat
import Mathlib.Data.List.DropRight

/-!
# The imports of a view

The data of an instruction that asks for an import name a path. White space may stand
around it, and semicolons behind it. This padding does not belong into the code, where one
semicolon stands behind the path.

The padding is taken off in three goes, and each takes one sort of it: white space, then
semicolons, then white space. So a semicolon that stands in front of white space in front
of another semicolon stays, with all that is in front of it. Padding of which nothing
stays is `Settled`.

## Main definitions

* `namedPath`, `padding`, `leftover` — the path that data name, what stands behind it, and
  how much of that stays.
* `namedLines` — an import for each instruction that names a path.

## Main results

* `toList_importPath` — what is imported is the path that is named, with what stays behind
  it.
* `leftover_eq_nil_iff`, `getLast?_leftover` — nothing stays of settled padding, and of any
  other a text that ends in a semicolon.
* `compile_imports` — **a view imports what its document names, in its order, iff all
  padding is settled**.
* `compile_imports_stray` — a semicolon that stays.
-/

namespace LiveMarkup.Template

open Markup (Document DocumentText Unsigned)
open Text (isBlank dropEndWhile trim trimEnd trimStart)

/-! ## Endings -/

theorem dropEndWhile_append_of_all {p : Char → Bool} (s : List Char) {t : List Char}
    (h : ∀ c ∈ t, p c = true) : dropEndWhile p (s ++ t) = dropEndWhile p s := by
  induction t using List.reverseRecOn with
  | nil => rw [List.append_nil]
  | append_singleton t c ih =>
      have hLast : p c = true := h c (List.mem_append_right _ (List.mem_singleton_self c))
      rw [← List.append_assoc]
      exact (List.rdropWhile_concat_pos p _ c hLast).trans
        (ih fun d hMem => h d (List.mem_append_left _ hMem))

/-- Behind a text that does not end in the class, an ending is dropped on its own. -/
theorem dropEndWhile_append {p : Char → Bool} {s : List Char} (h : dropEndWhile p s = s)
    (t : List Char) : dropEndWhile p (s ++ t) = s ++ dropEndWhile p t := by
  induction t using List.reverseRecOn with
  | nil => rw [List.append_nil, h, dropEndWhile, List.reverse_nil, List.dropWhile_nil,
      List.reverse_nil, List.append_nil]
  | append_singleton t c ih =>
      rw [← List.append_assoc]
      by_cases hLast : p c = true
      · exact (List.rdropWhile_concat_pos p _ c hLast).trans
          (ih.trans (congrArg (s ++ ·) (List.rdropWhile_concat_pos p _ c hLast).symm))
      · refine (List.rdropWhile_concat_neg p _ c hLast).trans ?_
        rw [List.append_assoc]
        exact congrArg (s ++ ·) (List.rdropWhile_concat_neg p _ c hLast).symm

/-- A text that does not end in a class does not end in a part of it. -/
theorem dropEndWhile_eq_self_of_imp {p q : Char → Bool} {s : List Char}
    (hImp : ∀ c, q c = true → p c = true) (h : dropEndWhile p s = s) : dropEndWhile q s = s :=
  List.rdropWhile_eq_self_iff.mpr fun hSome hLast =>
    List.rdropWhile_eq_self_iff.mp h hSome (hImp _ hLast)

theorem getLast?_dropEndWhile {p : Char → Bool} {s : List Char} {c : Char}
    (h : (dropEndWhile p s).getLast? = some c) : p c = false := by
  rw [dropEndWhile, List.getLast?_reverse] at h
  exact Text.head_dropWhile h

theorem dropEndWhile_prefix_self (p : Char → Bool) (s : List Char) : dropEndWhile p s <+: s :=
  List.rdropWhile_prefix p s

theorem dropEndWhile_append_rtakeWhile (p : Char → Bool) (s : List Char) :
    dropEndWhile p s ++ s.rtakeWhile p = s :=
  List.rdropWhile_append_rtakeWhile

/-! ## Paths and padding -/

/-- White space or a semicolon. -/
def isPadding (c : Char) : Bool :=
  isBlank c || c == ';'

/-- The path that data name: they without white space in front, and without white space and
semicolons behind. -/
def namedPath (data : List Char) : List Char :=
  dropEndWhile isPadding (trimStart data)

/-- The white space and the semicolons behind the path. -/
def padding (data : List Char) : List Char :=
  (trimStart data).rtakeWhile isPadding

/-- What stays of padding. -/
def leftover (pad : List Char) : List Char :=
  trimEnd (dropEndWhile (· == ';') (trimEnd pad))

/-- White space, then semicolons, then white space: no semicolon stands in front of white
space in front of another one. -/
def Settled (pad : List Char) : Prop :=
  ∃ before semicolons behind, pad = before ++ (semicolons ++ behind) ∧
    (∀ c ∈ before, isBlank c = true) ∧ (∀ c ∈ semicolons, c = ';') ∧
    ∀ c ∈ behind, isBlank c = true

theorem isPadding_of_isBlank {c : Char} (h : isBlank c = true) : isPadding c = true := by
  rw [isPadding, h, Bool.true_or]

theorem isPadding_of_semicolon {c : Char} (h : (c == ';') = true) : isPadding c = true := by
  rw [isPadding, h, Bool.or_true]

/-- A path is named unless there is nothing but padding. -/
theorem namedPath_eq_nil_iff {data : List Char} :
    namedPath data = [] ↔ ∀ c ∈ data, isPadding c = true := by
  refine List.rdropWhile_eq_nil_iff.trans ⟨fun h c hMem => ?_, fun h c hMem => ?_⟩
  · rw [← List.takeWhile_append_dropWhile (p := isBlank) (l := data), List.mem_append] at hMem
    rcases hMem with hBlank | hMem
    · exact isPadding_of_isBlank (List.mem_takeWhile_imp hBlank)
    · exact h c hMem
  · exact h c ((List.dropWhile_suffix _).subset hMem)

theorem dropEndWhile_namedPath (data : List Char) :
    dropEndWhile isPadding (namedPath data) = namedPath data :=
  List.rdropWhile_idempotent _ _

/-- A beginning of a text that begins with no white space begins with none. -/
theorem trimStart_eq_self_of_prefix {s data : List Char} (h : s <+: trimStart data) :
    trimStart s = s := by
  cases s with
  | nil => rfl
  | cons c s =>
      obtain ⟨rest, hRest⟩ := h
      have hFirst : isBlank c = false := Text.head_trimStart (by rw [← hRest]; rfl)
      rw [trimStart, List.dropWhile_cons_of_neg (by rw [hFirst]; decide)]

/-- **What is imported is the path that is named, with what stays behind it.** -/
theorem toList_importPath (data : String) :
    (importPath data).toList = namedPath data.toList ++ leftover (padding data.toList) := by
  have hNamed := dropEndWhile_namedPath data.toList
  have hBlank := dropEndWhile_append (dropEndWhile_eq_self_of_imp (fun _ => isPadding_of_isBlank)
    hNamed)
  have hSemicolon := dropEndWhile_append (dropEndWhile_eq_self_of_imp
    (fun _ => isPadding_of_semicolon) hNamed)
  have hPrefix : dropEndWhile (· == ';') (trimEnd (trimStart data.toList)) <+:
      trimStart data.toList :=
    (dropEndWhile_prefix_self _ _).trans (dropEndWhile_prefix_self _ _)
  have hParts : namedPath data.toList ++ padding data.toList = trimStart data.toList :=
    dropEndWhile_append_rtakeWhile _ _
  rw [importPath, String.toList_ofList, trim, trim, trimStart_eq_self_of_prefix hPrefix, ← hParts,
    trimEnd, trimEnd, hBlank, hSemicolon, hBlank, leftover, trimEnd, trimEnd]

/-- **Nothing stays of settled padding**, and of any other something does. -/
theorem leftover_eq_nil_iff {pad : List Char} : leftover pad = [] ↔ Settled pad := by
  constructor
  · intro hNil
    refine ⟨dropEndWhile (· == ';') (trimEnd pad), (trimEnd pad).rtakeWhile (· == ';'),
      pad.rtakeWhile isBlank, ?_, List.rdropWhile_eq_nil_iff.mp hNil, ?_, ?_⟩
    · rw [← List.append_assoc, dropEndWhile_append_rtakeWhile, trimEnd,
        dropEndWhile_append_rtakeWhile]
    · intro c hMem
      have hSemicolon : (c == ';') = true := List.mem_rtakeWhile_imp (p := (· == ';')) hMem
      exact beq_iff_eq.mp hSemicolon
    · exact fun c hMem => List.mem_rtakeWhile_imp hMem
  · rintro ⟨before, semicolons, behind, rfl, hBefore, hSemicolons, hBehind⟩
    have hTrimmed : trimEnd (before ++ (semicolons ++ behind)) <+: before ++ semicolons := by
      rw [← List.append_assoc, trimEnd, dropEndWhile_append_of_all _ hBehind]
      exact dropEndWhile_prefix_self _ _
    have hBlank : dropEndWhile (· == ';') (trimEnd (before ++ (semicolons ++ behind))) <+:
        before := by
      generalize trimEnd (before ++ (semicolons ++ behind)) = trimmed at hTrimmed
      rcases List.prefix_or_prefix_of_prefix hTrimmed (List.prefix_append before semicolons) with
        hInside | ⟨first, rfl⟩
      · exact (dropEndWhile_prefix_self _ _).trans hInside
      · have hFirst := ((List.prefix_append_right_inj before).mp hTrimmed).subset
        rw [dropEndWhile_append_of_all _ fun c hMem => beq_iff_eq.mpr (hSemicolons c (hFirst hMem))]
        exact dropEndWhile_prefix_self _ _
    exact List.rdropWhile_eq_nil_iff.mpr fun c hMem => hBefore c (hBlank.subset hMem)

/-- What stays of padding ends in a semicolon. -/
theorem getLast?_leftover {data : List Char} {c : Char}
    (h : (leftover (padding data)).getLast? = some c) : c = ';' := by
  have hPrefix : leftover (padding data) <+: padding data :=
    (dropEndWhile_prefix_self _ _).trans
      ((dropEndWhile_prefix_self _ _).trans (dropEndWhile_prefix_self _ _))
  have hMem : c ∈ padding data := hPrefix.subset (List.mem_of_getLast? h)
  have hPadding : isPadding c = true := List.mem_rtakeWhile_imp hMem
  rw [isPadding, Text.getLast_trimEnd h, Bool.false_or] at hPadding
  exact beq_iff_eq.mp hPadding

/-! ## Lines -/

/-- The line that imports a path. -/
def useLine (path : List Char) : Line :=
  ⟨1, "use " ++ String.ofList path ++ ";"⟩

/-- An import for each instruction whose data are not mere padding, in document order. -/
def namedLines (document : Document) : List Line :=
  (document.imports.filter fun data => data.toList.any fun c => !isPadding c).map fun data =>
    useLine (namedPath data.toList)

/-- The text of an import; where nothing is named, there is none. -/
def useText (path : List Char) : String :=
  if path = [] then "" else (useLine path).render

theorem length_useText (path : List Char) :
    (useText path).length = if path = [] then 0 else path.length + 10 := by
  rw [useText]
  split
  · rfl
  · have hIndent : (String.join (List.replicate 1 "    ")).length = 4 := by decide
    have hUse : "use ".length = 4 := rfl
    simp only [Line.render, useLine, String.length_append, hIndent, hUse, String.length_ofList]
    have hEnd : ";".length = 1 ∧ "\n".length = 1 := ⟨rfl, rfl⟩
    omega

/-- Lines for some of the items are texts for all of them, which may be empty. -/
theorem renderLines_map_filter {α : Type} (items : List α) (p : α → Bool) (line : α → Line) :
    renderLines ((items.filter p).map line) =
      String.join (items.map fun item => if p item then (line item).render else "") := by
  induction items with
  | nil => rfl
  | cons item items ih =>
      rw [List.map_cons, String.join_cons, ← ih]
      cases hItem : p item with
      | true => rw [List.filter_cons_of_pos hItem, List.map_cons, if_pos rfl, renderLines,
          List.map_cons, String.join_cons, renderLines]
      | false => rw [List.filter_cons_of_neg (by simp [hItem]), if_neg (by decide),
          String.empty_append]

theorem renderLines_importLines (document : Document) : renderLines (importLines document) =
    String.join (document.imports.map fun data => useText (importPath data).toList) := by
  rw [importLines, renderLines_map_filter, List.map_map]
  refine congrArg String.join (List.map_congr_left fun data _ => ?_)
  simp only [Function.comp_apply, useText, useLine, String.ofList_toList, String.toList_eq_nil_iff,
    Bool.not_eq_true', ← Bool.not_eq_true, String.isEmpty_iff, ite_not]

theorem renderLines_namedLines (document : Document) : renderLines (namedLines document) =
    String.join (document.imports.map fun data => useText (namedPath data.toList)) := by
  rw [namedLines, renderLines_map_filter]
  refine congrArg String.join (List.map_congr_left fun data _ => ?_)
  have hNone : (data.toList.any fun c => !isPadding c) = true ↔ ¬ namedPath data.toList = [] := by
    simp [namedPath_eq_nil_iff]
  simp only [hNone, useText, ite_not]

/-- What stays of padding makes the text of an import longer. -/
theorem length_useText_append (path rest : List Char) :
    (useText path).length ≤ (useText (path ++ rest)).length ∧
      (rest ≠ [] → (useText path).length < (useText (path ++ rest)).length) := by
  cases rest with
  | nil => simp
  | cons c rest =>
      have hSome : path ++ c :: rest ≠ [] := by simp
      rw [length_useText, length_useText, if_neg hSome, List.length_append, List.length_cons]
      split <;> exact ⟨by omega, fun _ => by omega⟩

/-- **The lines are those of the named paths iff all padding is settled.** -/
theorem renderLines_importLines_eq_iff (document : Document) :
    renderLines (importLines document) = renderLines (namedLines document) ↔
      ∀ data ∈ document.imports, Settled (padding data.toList) := by
  rw [renderLines_importLines, renderLines_namedLines]
  simp only [toList_importPath, ← leftover_eq_nil_iff]
  constructor
  · intro hText data hMem
    by_contra hSome
    have hAdds (data : String) :=
      length_useText_append (namedPath data.toList) (leftover (padding data.toList))
    have hLonger := List.sum_lt_sum _ _ (fun data _ => (hAdds data).1)
      ⟨data, hMem, (hAdds data).2 hSome⟩
    have hLength := congrArg String.length hText
    simp only [String.length_join, List.map_map, Function.comp_def] at hLength
    exact absurd hLength.symm (Nat.ne_of_lt hLonger)
  · intro hSettled
    refine congrArg String.join (List.map_congr_left fun data hMem => ?_)
    rw [hSettled data hMem, List.append_nil]

/-! ## Views -/

/-- The lines of a module in front of its imports. -/
def openingLines (origin : Option String) (name : String) : List Line :=
  [originLine origin, ⟨0, "#[allow(unused_imports)]"⟩, ⟨0, "mod " ++ name ++ " \x7b"⟩,
    ⟨1, "use super::*;"⟩]

/-- The lines of a module behind its imports. -/
def implementationLines (options : Options) (host : String) (plan : Plan) : List Line :=
  [⟨0, ""⟩,
    ⟨1, "impl " ++ options.runtimePath ++ "::Rebuild for " ++ host ++ " \x7b"⟩,
    ⟨2, "#[allow(unused_mut, unused_parens, unused_braces, unused_variables, "
      ++ "redundant_semicolons, clippy::all)]"⟩,
    ⟨2, "fn build_virtual_tree(&self) -> " ++ options.runtimePath ++ "::VNode \x7b"⟩]
    ++ bodyLines options plan
    ++ [⟨2, "\x7d"⟩, ⟨1, "\x7d"⟩, ⟨0, "\x7d"⟩]

theorem source_eq_imports (options : Options) (origin : Option String) (host identifier : String)
    (document : Document) (plan : Plan) :
    (viewOf options origin host identifier document plan).source =
      renderLines (openingLines origin (moduleName identifier)) ++
        renderLines (importLines document) ++
        renderLines (implementationLines options host plan) := by
  rw [viewOf, ← renderLines_append, ← renderLines_append]
  simp only [moduleLines, openingLines, implementationLines, List.append_assoc]

/--
**A view imports what its document names, in its order, iff all padding is settled.** For
every source that compiles, from a file or not: behind `use super::*;` stands a line for
each instruction that asks for an import, unless its data are trimmed to nothing; the source
is a layout of the document with these instructions, if its references have no signs. The
line imports the path that is named, with what stays of the padding behind it: nothing of
settled padding, and of any other a text that ends in a semicolon. A named path ends neither
in white space nor in a semicolon, and the lines are those of the named paths, with one
semicolon at the end of each, iff all padding is settled.
-/
theorem compile_imports {options : Options} {origin : Option String} {host source : String}
    {view : View} (hCompile : (compilation options origin host source).result = .ok view) :
    ∃ document plan, Document.read source = .ok document ∧
      (Unsigned source.toList → DocumentText source.toList document) ∧
      Plan.ofDocument options document = .ok plan ∧
      view.source = renderLines (openingLines origin view.moduleName) ++
        renderLines (importLines document) ++
        renderLines (implementationLines options host plan) ∧
      (∀ data ∈ document.imports,
        (importPath data).toList = namedPath data.toList ++ leftover (padding data.toList) ∧
        (leftover (padding data.toList) = [] ↔ Settled (padding data.toList)) ∧
        (∀ c, (leftover (padding data.toList)).getLast? = some c → c = ';') ∧
        ∀ c, (namedPath data.toList).getLast? = some c → isPadding c = false) ∧
      (view.source = renderLines (openingLines origin view.moduleName) ++
        renderLines (namedLines document) ++
        renderLines (implementationLines options host plan) ↔
        ∀ data ∈ document.imports, Settled (padding data.toList)) := by
  obtain ⟨identifier, document, plan, -, hRead, hPlan, rfl⟩ := exists_read_of_compilation hCompile
  have hSource := source_eq_imports options origin host identifier document plan
  refine ⟨document, plan, hRead, fun hSign => Markup.documentText_of_document_read hSign hRead,
    hPlan, hSource, fun data _ => ⟨toList_importPath data, leftover_eq_nil_iff,
      fun _ => getLast?_leftover, fun _ => getLast?_dropEndWhile⟩, ?_⟩
  rw [hSource, ← renderLines_importLines_eq_iff]
  exact (String.append_left_inj _).trans (String.append_right_inj _)

/-- A text compiles if it is read and no element of its document is at fault. -/
theorem exists_compile_of_imports (source : String) (imports : List String)
    {host identifier : String} (hHost : Code.typeName? host = some identifier)
    (hRead : (Document.read source).toOption.map (fun document => (document.imports,
      document.tags.all fun tag => fault? .standard tag = none)) = some (imports, true)) :
    ∃ document plan, Document.read source = .ok document ∧ document.imports = imports ∧
      compile .standard host source =
        .ok (viewOf .standard none host identifier document plan) := by
  obtain ⟨document, hRead, hDocument⟩ := exists_ok_of_map hRead
  simp only [Prod.mk.injEq, List.all_eq_true, decide_eq_true_eq] at hDocument
  obtain ⟨plan, hPlan⟩ := exists_plan_iff.mpr hDocument.2
  refine ⟨document, plan, hRead, hDocument.1, ?_⟩
  rw [compile_of_read .standard hHost hRead, hPlan]

/-- Instructions on both sides of the root element, one of them with mere padding. -/
theorem compile_imports_padded :
    let source := "<?USING  std::fmt ;;\t?><?using ;?><a/><?Using b?>"
    ∃ view document plan, compile .standard "Host" source = .ok view ∧
      Document.read source = .ok document ∧ document.imports = ["std::fmt ;;", ";", "b"] ∧
      view.source = renderLines (openingLines none view.moduleName) ++
        "    use std::fmt;\n    use b;\n" ++
        renderLines (implementationLines .standard "Host" plan) := by
  intro source
  have hHost : Code.typeName? "Host" = some "Host" := by decide +kernel
  obtain ⟨document, plan, hRead, hImports, hCompile⟩ :=
    exists_compile_of_imports source ["std::fmt ;;", ";", "b"] hHost (by decide +kernel)
  obtain ⟨document', plan', hRead', -, -, -, -, hSource⟩ := compile_imports hCompile
  obtain rfl := Except.ok.inj (hRead'.symm.trans hRead)
  have hSettled : ∀ data ∈ document'.imports, Settled (padding data.toList) := by
    simp only [hImports, ← leftover_eq_nil_iff]
    decide
  have hLines : renderLines (namedLines document') = "    use std::fmt;\n    use b;\n" := by
    rw [namedLines, hImports]
    decide +kernel
  refine ⟨_, document', plan', hCompile, hRead, hImports, ?_⟩
  rw [← hLines]
  exact hSource.mpr hSettled

/-- **A semicolon that stays**: in front of the last white space in the padding stands one
that is taken for a part of the path, and the line ends in two. -/
theorem compile_imports_stray :
    let source := "<?using a; ;?><a/>"
    ∃ view document plan, compile .standard "Host" source = .ok view ∧
      Document.read source = .ok document ∧ document.imports = ["a; ;"] ∧
      namedLines document = [⟨1, "use a;"⟩] ∧
      view.source = renderLines (openingLines none view.moduleName) ++ "    use a;;\n" ++
        renderLines (implementationLines .standard "Host" plan) ∧
      view.source ≠ renderLines (openingLines none view.moduleName) ++
        renderLines (namedLines document) ++
        renderLines (implementationLines .standard "Host" plan) := by
  intro source
  have hHost : Code.typeName? "Host" = some "Host" := by decide +kernel
  obtain ⟨document, plan, hRead, hImports, hCompile⟩ :=
    exists_compile_of_imports source ["a; ;"] hHost (by decide +kernel)
  have hSource := source_eq_imports .standard none "Host" "Host" document plan
  have hNamed : namedLines document = [⟨1, "use a;"⟩] := by
    rw [namedLines, hImports]
    decide +kernel
  have hLines : renderLines (importLines document) = "    use a;;\n" := by
    rw [importLines, hImports]
    decide +kernel
  rw [hLines] at hSource
  refine ⟨_, document, plan, hCompile, hRead, hImports, hNamed, hSource, ?_⟩
  rw [hSource, hNamed]
  intro hEq
  have hText := (String.append_right_inj _).mp ((String.append_left_inj _).mp hEq)
  exact absurd hText (by decide +kernel)

end LiveMarkup.Template
