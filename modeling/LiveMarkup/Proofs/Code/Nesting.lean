import LiveMarkup.Code.Token

/-!
# Brackets and groups

Brackets make groups: an opening one, what stands between, and a closing one of its kind.
Lexemes whose brackets make groups throughout are nested to the same tokens wherever they
stand, and leave the brackets that are open around them as they are.

## Main definitions

* `Nests` — the brackets of lexemes make groups, and these are the tokens.

## Main results

* `nests_of_nest` — whatever is nested nests.
* `Nests.nest_append` — **lexemes that nest leave the open brackets as they are**.
-/

namespace LiveMarkup.Code

/-- The brackets of lexemes make groups; with these groups the lexemes are tokens. -/
inductive Nests : List Lexeme → List Token → Prop where
  | nil : Nests [] []
  | token {token : Token} {lexemes : List Lexeme} {tokens : List Token}
      (hRest : Nests lexemes tokens) : Nests (.token token :: lexemes) (token :: tokens)
  | group {bracket : Bracket} {inside lexemes : List Lexeme} {content tokens : List Token}
      (hInside : Nests inside content) (hRest : Nests lexemes tokens) :
      Nests (.opening bracket :: (inside ++ .closing bracket :: lexemes))
        (.group bracket content :: tokens)

/-- **Lexemes that nest leave the open brackets as they are** and put their tokens behind
those in front of them. -/
theorem Nests.nest_append {front rest : List Lexeme} {tokens : List Token} (h : Nests front tokens)
    (opened : List (Bracket × List Token)) (before : List Token) :
    nest opened before (front ++ rest) = nest opened (tokens.reverse ++ before) rest := by
  induction h generalizing opened before rest with
  | nil => rfl
  | token _ ih =>
      rw [List.cons_append, nest, ih]
      simp
  | @group bracket inside lexemes content tokens _ _ ihInside ihRest =>
      rw [List.cons_append, List.append_assoc, nest, ihInside, List.append_nil, List.cons_append,
        nest, if_pos rfl, List.reverse_reverse, ihRest]
      simp

theorem Nests.append {front rest : List Lexeme} {tokens others : List Token}
    (h : Nests front tokens) (hRest : Nests rest others) :
    Nests (front ++ rest) (tokens ++ others) := by
  induction h with
  | nil => exact hRest
  | token _ ih => exact .token ih
  | group hInside _ _ ih =>
      rw [List.cons_append, List.append_assoc]
      exact .group hInside ih

/-- Tokens that are no brackets nest as they are. -/
theorem nests_tokens (tokens : List Token) : Nests (tokens.map .token) tokens := by
  induction tokens with
  | nil => exact .nil
  | cons token tokens ih => exact .token ih

/-- A token of what nests is a lexeme, unless it is a group. -/
theorem Nests.mem {lexemes : List Lexeme} {tokens : List Token} (h : Nests lexemes tokens)
    {token : Token} (hMem : token ∈ tokens) :
    .token token ∈ lexemes ∨ ∃ bracket content, token = .group bracket content := by
  induction h with
  | nil => cases hMem
  | token _ ih =>
      rcases List.mem_cons.mp hMem with rfl | hMem
      · exact .inl List.mem_cons_self
      · exact (ih hMem).imp_left (List.mem_cons_of_mem _)
  | group _ _ _ ih =>
      rcases List.mem_cons.mp hMem with rfl | hMem
      · exact .inr ⟨_, _, rfl⟩
      · refine (ih hMem).imp_left fun hLexeme => ?_
        exact List.mem_cons_of_mem _ (List.mem_append_right _ (List.mem_cons_of_mem _ hLexeme))

/-- The innermost open bracket is closed, and what stands in front of its closing bracket
nests. -/
theorem exists_nests_of_opened {bracket : Bracket} {outside : List Token}
    {opened : List (Bracket × List Token)} {before : List Token} {lexemes : List Lexeme}
    {tokens : List Token}
    (h : nest ((bracket, outside) :: opened) before lexemes = some tokens) :
    ∃ inside content behind, lexemes = inside ++ .closing bracket :: behind ∧
      Nests inside content ∧
      nest opened (.group bracket (before.reverse ++ content) :: outside) behind = some tokens := by
  match lexemes with
  | [] => cases h
  | .token token :: lexemes =>
      rw [nest] at h
      obtain ⟨inside, content, behind, rfl, hInside, hRest⟩ := exists_nests_of_opened h
      refine ⟨.token token :: inside, token :: content, behind, rfl, .token hInside, ?_⟩
      simpa using hRest
  | .closing other :: lexemes =>
      rw [nest] at h
      split at h
      · rename_i hKind
        subst hKind
        refine ⟨[], [], lexemes, rfl, .nil, ?_⟩
        simpa using h
      · cases h
  | .opening inner :: lexemes =>
      rw [nest] at h
      obtain ⟨first, content, middle, hParts, hFirst, hMiddle⟩ := exists_nests_of_opened h
      have hShorter : middle.length < lexemes.length := by
        rw [hParts, List.length_append, List.length_cons]
        omega
      obtain ⟨second, others, behind, rfl, hSecond, hRest⟩ := exists_nests_of_opened hMiddle
      subst hParts
      refine ⟨.opening inner :: (first ++ .closing inner :: second),
        .group inner content :: others, behind, by simp, .group hFirst hSecond, ?_⟩
      simpa using hRest
termination_by lexemes.length
decreasing_by
  · exact Nat.lt_succ_self _
  · exact Nat.lt_succ_self _
  · exact Nat.lt_succ_of_lt hShorter

/-- Whatever is nested nests. -/
theorem nests_of_nest {before : List Token} {lexemes : List Lexeme} {tokens : List Token}
    (h : nest [] before lexemes = some tokens) :
    ∃ content, Nests lexemes content ∧ tokens = before.reverse ++ content := by
  match lexemes with
  | [] =>
      cases h
      exact ⟨[], .nil, by simp⟩
  | .token token :: lexemes =>
      rw [nest] at h
      obtain ⟨content, hRest, rfl⟩ := nests_of_nest h
      exact ⟨token :: content, .token hRest, by simp⟩
  | .closing _ :: _ => cases h
  | .opening bracket :: lexemes =>
      rw [nest] at h
      obtain ⟨inside, content, behind, hParts, hInside, hBehind⟩ := exists_nests_of_opened h
      have hShorter : behind.length < lexemes.length := by
        rw [hParts, List.length_append, List.length_cons]
        omega
      obtain ⟨others, hRest, rfl⟩ := nests_of_nest hBehind
      subst hParts
      exact ⟨.group bracket content :: others, .group hInside hRest, by simp⟩
termination_by lexemes.length
decreasing_by
  · exact Nat.lt_succ_self _
  · exact Nat.lt_succ_of_lt hShorter

end LiveMarkup.Code
