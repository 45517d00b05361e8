import LiveMarkup.Proofs.Code.TypeNames
import LiveMarkup.Proofs.Template.Faults

/-!
# The names of modules

The module of a view is named after the type of its host: the identifier of the type in
small letters, with low lines between the parts that capitals began, behind a fixed
beginning. Characters that may go on with an identifier are kept or become others of this
kind, so the name is an identifier. The mark of a raw identifier is kept as well, and
then it stands in the middle of the name, where no identifier has one.

## Main definitions

* `IsRaw` — an identifier is written with the mark in front.

## Main results

* `isIdentifier_moduleName_iff` — a module is named by an identifier unless that of the
  type is raw, and then it is not.
* `compile_moduleName` — **what the module of a view is named, and what the line of the
  module says**.
-/

namespace LiveMarkup.Template

open Code (IsName IsIdentifier WordText)
open Text (isIdentifierStart isIdentifierContinue)

/-- An identifier is written with the mark that makes a word raw. -/
def IsRaw (identifier : String) : Prop :=
  ['r', '#'] <+: identifier.toList

/-! ## Letters -/

/-- A capital becomes a small letter, which is none and may begin an identifier. -/
theorem toLower_of_isUpper {c : Char} (h : c.isUpper = true) :
    c.toLower.isUpper = false ∧ isIdentifierStart c.toLower = true := by
  have hLetters : ∀ n < 26, (Char.ofNat (65 + n)).toLower.isUpper = false ∧
      isIdentifierStart (Char.ofNat (65 + n)).toLower = true := by decide
  have hBounds : 65 ≤ c.val ∧ c.val ≤ 90 := of_decide_eq_true h
  have hLeast : 65 ≤ c.toNat := UInt32.le_iff_toNat_le.mp hBounds.1
  have hMost : c.toNat ≤ 90 := UInt32.le_iff_toNat_le.mp hBounds.2
  have hLetter := hLetters (c.toNat - 65) (by omega)
  rwa [Nat.add_sub_cancel' hLeast, Char.ofNat_toNat] at hLetter

/-- What a character of an identifier becomes: itself, a low line or a small letter. -/
theorem mem_snakeChars {small : Bool} {s : List Char} {c : Char} (h : c ∈ snakeChars small s) :
    c.isUpper = false ∧ (isIdentifierStart c = true ∨ c ∈ s) := by
  induction s generalizing small with
  | nil => cases h
  | cons first s ih =>
      rw [snakeChars] at h
      split at h
      · rename_i hUpper
        rcases List.mem_append.mp h with hHere | hBehind
        · have hCases : c = '_' ∨ c = first.toLower := by
            split at hHere <;> simp_all
          rcases hCases with rfl | rfl
          · exact ⟨by decide, .inl (by decide)⟩
          · exact (toLower_of_isUpper hUpper).imp_right .inl
        · exact (ih hBehind).imp_right (Or.imp_right (List.mem_cons_of_mem first))
      · rename_i hUpper
        rcases List.mem_cons.mp h with rfl | hBehind
        · exact ⟨by simpa using hUpper, .inr List.mem_cons_self⟩
        · exact (ih hBehind).imp_right (Or.imp_right (List.mem_cons_of_mem first))

/-! ## Names -/

theorem moduleName_toList (identifier : String) :
    (moduleName identifier).toList =
      "__trellis_".toList ++ snakeChars false identifier.toList := by
  rw [moduleName, String.toList_append, String.toList_ofList (l := snakeChars _ _)]

/-- The characters of a name that is not raw may go on with an identifier. -/
theorem isIdentifierContinue_of_isName {name : String} (hName : IsName name.toList) {c : Char}
    (hMem : c ∈ name.toList) :
    isIdentifierContinue c = true ∨ c = '#' ∧ IsRaw name := by
  obtain ⟨token, hText⟩ := hName
  generalize hChars : name.toList = text at hText hMem
  cases hText with
  | word hWord => exact .inl (hWord.isIdentifierContinue hMem)
  | @rawWord text hWord hRaw =>
      have hMark : IsRaw name := by
        rw [IsRaw, hChars]
        exact ⟨text, rfl⟩
      rcases List.mem_cons.mp hMem with rfl | hMem
      · exact .inl (by decide)
      · rcases List.mem_cons.mp hMem with rfl | hMem
        · exact .inr ⟨rfl, hMark⟩
        · exact .inl (hWord.isIdentifierContinue hMem)

/-- The name of a module is made of characters that may go on with an identifier, and the
mark of the identifier that it was made from. -/
theorem mem_moduleName {identifier : String} (hName : IsName identifier.toList) {c : Char}
    (h : c ∈ (moduleName identifier).toList) :
    c.isUpper = false ∧ (isIdentifierContinue c = true ∨ c = '#' ∧ IsRaw identifier) := by
  have hFront : "__trellis_".toList.all (fun c => !c.isUpper && isIdentifierContinue c) = true := by
    decide
  rw [moduleName_toList, List.mem_append] at h
  rcases h with hFirst | hBehind
  · have hHere := List.all_eq_true.mp hFront c hFirst
    rw [Bool.and_eq_true, Bool.not_eq_true'] at hHere
    exact hHere.imp_right .inl
  · obtain ⟨hUpper, hStart | hMem⟩ := mem_snakeChars hBehind
    · exact ⟨hUpper, .inl (Text.isIdentifierContinue_of_start hStart)⟩
    · exact ⟨hUpper, isIdentifierContinue_of_isName hName hMem⟩

/-- No keyword begins like the name of a module. -/
theorem moduleName_not_mem_keywords (identifier : String) :
    moduleName identifier ∉ Code.keywords := by
  have hKeywords : ∀ word ∈ Code.keywords, ¬ ['_', '_'] <+: word.toList := by decide
  intro hMem
  refine hKeywords _ hMem ?_
  rw [moduleName_toList]
  exact ⟨_, rfl⟩

/-- The mark of a raw identifier stays in the name. -/
theorem number_sign_mem_moduleName {identifier : String} (h : IsRaw identifier) :
    '#' ∈ (moduleName identifier).toList := by
  obtain ⟨text, hText⟩ := h
  have hSnake : snakeChars false identifier.toList =
      'r' :: '#' :: snakeChars false text := by
    rw [← hText]
    rfl
  rw [moduleName_toList, hSnake]
  simp

/-- **A module is named by an identifier unless the identifier of the type is raw**, and
then it is not. -/
theorem isIdentifier_moduleName_iff {identifier : String} (hName : IsName identifier.toList) :
    IsIdentifier (moduleName identifier).toList ↔ ¬ IsRaw identifier := by
  constructor
  · rintro ⟨token, hText, -⟩ hRaw
    have hMark := number_sign_mem_moduleName hRaw
    generalize hChars : (moduleName identifier).toList = text at hText hMark
    cases hText with
    | word hWord => exact absurd (hWord.isIdentifierContinue hMark) (by decide)
    | rawWord _ _ =>
        rw [moduleName_toList] at hChars
        cases hChars
  · intro hRaw
    have hRest : ∀ c ∈ (moduleName identifier).toList, isIdentifierContinue c = true := by
      intro c hMem
      exact (mem_moduleName hName hMem).2.resolve_right fun hMark => hRaw hMark.2
    have hWord : Code.IsWord (moduleName identifier).toList := by
      rw [moduleName_toList] at hRest ⊢
      exact ⟨'_', _, rfl, by decide, fun c hMem => hRest c (List.mem_cons_of_mem _ hMem)⟩
    refine ⟨_, .word hWord, ?_⟩
    rw [String.ofList_toList, Code.Token.identifier?,
      if_neg (moduleName_not_mem_keywords identifier)]
    rfl

/-! ## Views -/

theorem renderLines_append (front back : List Line) :
    renderLines (front ++ back) = renderLines front ++ renderLines back := by
  simp [renderLines]

/-- The beginning of generated code, up to the name of its module. -/
def moduleOpening : String :=
  "// @generated by trellis; do not edit.\n#[allow(unused_imports)]\nmod "

/-- The first three lines of a view that comes from no file. -/
theorem renderLines_opening (name : String) :
    renderLines [originLine none, ⟨0, "#[allow(unused_imports)]"⟩, ⟨0, "mod " ++ name ++ " \x7b"⟩] =
      moduleOpening ++ name ++ " \x7b\n" := by
  have hParts : moduleOpening =
      "// @generated by trellis; do not edit." ++ "\n" ++ "#[allow(unused_imports)]" ++ "\n" ++
        "mod " :=
    rfl
  have hEnd : " \x7b\n" = " \x7b" ++ "\n" := rfl
  simp [hParts, hEnd, renderLines, Line.render, originLine, String.append_assoc,
    -String.reduceAppend]

/-- A view begins with these lines. -/
theorem exists_source_eq (options : Options) (host identifier : String)
    (document : Markup.Document) (plan : Plan) :
    ∃ rest, (viewOf options none host identifier document plan).source =
      moduleOpening ++ moduleName identifier ++ " \x7b\n" ++ rest := by
  let lines := moduleLines options none host (moduleName identifier) document plan
  refine ⟨renderLines (lines.drop 3), ?_⟩
  rw [viewOf, ← renderLines_opening, ← renderLines_append]
  rfl

/-- An element alone compiles for every type. -/
theorem exists_compile_element {host identifier : String}
    (hHost : Code.typeName? host = some identifier) :
    ∃ document plan, compile .standard host "<a/>" =
      .ok (viewOf .standard none host identifier document plan) := by
  have hFaults : (Markup.Document.read "<a/>").toOption.map (fun document =>
      document.tags.all fun tag => fault? .standard tag = none) = some true := by
    decide +kernel
  obtain ⟨document, hRead, hDocument⟩ := exists_ok_of_map hFaults
  simp only [List.all_eq_true, decide_eq_true_eq] at hDocument
  obtain ⟨plan, hPlan⟩ := exists_plan_iff.mpr hDocument
  refine ⟨document, plan, ?_⟩
  rw [compile_of_read .standard hHost hRead, hPlan]

/-- **What the module of a view is named**, for every host that is a type, and what the
line of the module says: it is the name of the view. The name is that of the type in small
letters; it holds nothing but characters that may go on with an identifier and is an
identifier, unless that of the type is raw: then the mark stands in it, and it is none. -/
theorem compile_moduleName {options : Options} {host source : String} {view : View}
    (hCompile : compile options host source = .ok view) :
    ∃ identifier rest, Code.typeName? host = some identifier ∧ IsName identifier.toList ∧
      view.moduleName = moduleName identifier ∧
      view.source = moduleOpening ++ view.moduleName ++ " \x7b\n" ++ rest ∧
      (∀ c ∈ view.moduleName.toList, c.isUpper = false ∧
        (isIdentifierContinue c = true ∨ c = '#' ∧ IsRaw identifier)) ∧
      (IsIdentifier view.moduleName.toList ↔ ¬ IsRaw identifier) := by
  obtain ⟨identifier, document, plan, hHost, -, -, rfl⟩ := exists_read_of_compile hCompile
  have hName := Code.isName_of_typeName? hHost
  obtain ⟨rest, hSource⟩ := exists_source_eq options host identifier document plan
  exact ⟨identifier, rest, hHost, hName, rfl, hSource, fun c hMem => mem_moduleName hName hMem,
    isIdentifier_moduleName_iff hName⟩

/-- A type at the end of a path, with arguments, digits, capitals in a row and a letter
beyond ASCII. -/
theorem compile_moduleName_path :
    let host := "crate::app<[u8; 2]>::HTTPÄrger2Go<'a, T>"
    ∃ view rest, compile .standard host "<a/>" = .ok view ∧
      view.moduleName = "__trellis_httpÄrger2_go" ∧ IsIdentifier view.moduleName.toList ∧
      view.source = moduleOpening ++ "__trellis_httpÄrger2_go" ++ " \x7b\n" ++ rest := by
  intro host
  have hHost : Code.typeName? host = some "HTTPÄrger2Go" := by decide +kernel
  obtain ⟨document, plan, hCompile⟩ := exists_compile_element hHost
  obtain ⟨identifier, rest, hName, -, hModule, hSource, -, hIdentifier⟩ :=
    compile_moduleName hCompile
  obtain rfl : "HTTPÄrger2Go" = identifier := Option.some.inj (hHost.symm.trans hName)
  have hSnake : moduleName "HTTPÄrger2Go" = "__trellis_httpÄrger2_go" := by decide
  rw [hSnake] at hModule
  rw [hModule] at hSource
  refine ⟨_, rest, hCompile, hModule, hIdentifier.mpr ?_, hSource⟩
  rw [IsRaw]
  decide

/-- **A raw identifier gives a module that no identifier names**: the mark stands in the
middle of the name. -/
theorem compile_moduleName_raw :
    ∃ view rest, compile .standard "r#type" "<a/>" = .ok view ∧
      view.moduleName = "__trellis_r#type" ∧ ¬ IsIdentifier view.moduleName.toList ∧
      ¬ (∀ c ∈ view.moduleName.toList, isIdentifierContinue c = true) ∧
      view.source = moduleOpening ++ "__trellis_r#type" ++ " \x7b\n" ++ rest := by
  have hHost : Code.typeName? "r#type" = some "r#type" := by decide +kernel
  have hRaw : IsRaw "r#type" := by
    rw [IsRaw]
    decide
  have hSnake : moduleName "r#type" = "__trellis_r#type" := by decide
  obtain ⟨document, plan, hCompile⟩ := exists_compile_element hHost
  obtain ⟨rest, hSource⟩ := exists_source_eq .standard "r#type" "r#type" document plan
  rw [hSnake] at hSource
  refine ⟨_, rest, hCompile, hSnake, fun hIdentifier => ?_, fun hAll => ?_, hSource⟩
  · exact (isIdentifier_moduleName_iff (Code.isName_of_typeName? hHost)).mp hIdentifier hRaw
  · exact absurd (hAll '#' (number_sign_mem_moduleName hRaw)) (by decide)

end LiveMarkup.Template
