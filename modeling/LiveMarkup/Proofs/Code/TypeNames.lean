import LiveMarkup.Proofs.Code.Leaving
import LiveMarkup.Proofs.Code.Spelling

/-!
# The names of types

The name of a type is the identifier of the last segment of its path. The arguments of the
segments in front may be any phrases of the language, but whatever they are, the name has
been written as one word: it is that of a token among those that the path is read from, so
it is an identifier without its mark, a raw identifier, or one of the keywords that may
stand in a path.

## Main definitions

* `IsName` — a text is a word, keyword or not, raw or not.

## Main results

* `iterateWithin_induction` — what every step keeps holds at the end.
* `named_of_path` — the name of a path is that of a word among its tokens.
* `isName_of_typeName?` — **the name of a type is one word**.
-/

namespace LiveMarkup.Code

open LiveMarkup.Code.Parser

/-- A text is one word from its beginning to its end, keyword or not, raw or not. -/
def IsName (text : List Char) : Prop :=
  ∃ token, WordText token text

/-- A token that is a word has a name, which is how it is written. -/
def Token.name? : Token → Option String
  | .word text => some text
  | .rawWord text => some ("r#" ++ text)
  | _ => none

/-- A name is that of a word among the tokens. -/
def Named (ts : List Token) (name : String) : Prop :=
  ∃ token ∈ ts, token.name? = some name

theorem Named.of_suffix {ts rest : List Token} {name : String} (h : Named rest name)
    (hSuffix : rest <:+ ts) : Named ts name := by
  obtain ⟨token, hMem, hName⟩ := h
  exact ⟨token, hSuffix.subset hMem, hName⟩

/-- The name of a token that is well spelled is a word. -/
theorem isName_of_name? {token : Token} {name : String} (h : token.WellSpelled)
    (hName : token.name? = some name) : IsName name.toList := by
  cases token with
  | word text =>
      cases hName
      exact ⟨_, by simpa using WordText.word h⟩
  | rawWord text =>
      cases hName
      exact ⟨_, by simpa using WordText.rawWord h.1 (by simpa using h.2)⟩
  | lifetime _ => cases hName
  | literal _ => cases hName
  | punct _ _ => cases hName
  | group _ _ => cases hName

/-! ## Words -/

/-- A token that is read is the first one. -/
theorem token_eq_some {α : Type} {read? : Token → Option α} {ts rest : List Token} {a : α}
    (h : token read? ts = some (a, rest)) : ∃ first ∈ ts, read? first = some a := by
  cases ts with
  | nil => cases h
  | cons first ts =>
      obtain ⟨b, hRead, hPair⟩ := Option.map_eq_some_iff.mp h
      cases hPair
      exact ⟨first, List.mem_cons_self, hRead⟩

theorem named_of_anyWord {ts rest : List Token} {name : String}
    (h : anyWord ts = some (name, rest)) : Named ts name := by
  obtain ⟨first, hMem, hRead⟩ := token_eq_some h
  refine ⟨first, hMem, ?_⟩
  cases first <;> exact hRead

theorem named_of_identifier {ts rest : List Token} {name : String}
    (h : identifier ts = some (name, rest)) : Named ts name := by
  obtain ⟨first, hMem, hRead⟩ := token_eq_some h
  refine ⟨first, hMem, ?_⟩
  cases first with
  | word text =>
      rw [Token.identifier?] at hRead
      split at hRead
      · cases hRead
      · exact hRead
  | rawWord text => exact hRead
  | lifetime _ => cases hRead
  | literal _ => cases hRead
  | punct _ _ => cases hRead
  | group _ _ => cases hRead

/-! ## Paths -/

/-- **What every step keeps holds at the end** of an iteration. -/
theorem iterateWithin_induction {α : Type} {step : α → Parser (Option α)}
    {motive : α → List Token → Prop}
    (hNext : ∀ a b ts rest, motive a ts → step a ts = some (some b, rest) → motive b rest)
    (hLast : ∀ a ts rest, motive a ts → step a ts = some (none, rest) → motive a rest)
    {limit : Nat} {a b : α} {ts rest : List Token}
    (h : iterateWithin step limit a ts = some (b, rest)) (hFirst : motive a ts) :
    motive b rest := by
  induction limit generalizing a ts with
  | zero => cases h
  | succ limit ih =>
      obtain ⟨⟨found, mid⟩, hStep, hRest⟩ := Option.bind_eq_some_iff.mp h
      cases found with
      | none =>
          cases hRest
          exact hLast _ ts _ hFirst hStep
      | some next => exact ih hRest (hNext a next ts mid hFirst hStep)

/-- The arguments of a segment leave its name as it is. -/
theorem name_of_arguments {g : Grammar} {value : Bool} {name : String} {ts rest : List Token}
    {found : String × ArgumentForm}
    (h : (do
      if atAngles value (← get) then return (name, ← angles g)
      else return (name, .none) : Parser (String × ArgumentForm)) ts = some (found, rest)) :
    found.1 = name := by
  rw [get_bind] at h
  split at h
  · obtain ⟨_, -, hPair⟩ := Option.bind_eq_some_iff.mp h
    cases hPair
    rfl
  · cases h
    rfl

/-- The name of a segment is that of a word. -/
theorem named_of_segment {g : Grammar} {value : Bool} {ts rest : List Token}
    {found : String × ArgumentForm} (h : segment g value ts = some (found, rest)) :
    Named ts found.1 := by
  rw [segment, get_bind] at h
  split at h
  · obtain ⟨⟨name, _⟩, hRead, hPair⟩ := Option.bind_eq_some_iff.mp h
    cases hPair
    exact named_of_anyWord hRead
  · dsimp only at h
    split at h
    · obtain ⟨⟨name, mid⟩, hRead, hArguments⟩ := Option.bind_eq_some_iff.mp h
      rw [name_of_arguments hArguments]
      exact named_of_anyWord hRead
    · obtain ⟨⟨name, mid⟩, hRead, hArguments⟩ := Option.bind_eq_some_iff.mp h
      rw [name_of_arguments hArguments]
      exact named_of_identifier hRead

/-- The name of a path is that of a word among the tokens that it is read from, since the
arguments of a segment leave the end of what they are given. -/
theorem named_of_path {g : Grammar} [g.Leaves] {value : Bool} {ts rest : List Token}
    {form : PathForm} (h : path g value ts = some (form, rest)) : Named ts form.name := by
  obtain ⟨⟨rooted, first⟩, hRooted, h⟩ := Option.bind_eq_some_iff.mp h
  obtain ⟨⟨⟨name, arguments⟩, second⟩, hSegment, h⟩ := Option.bind_eq_some_iff.mp h
  have hFirst : first <:+ ts := Leaves.suffix ts rooted first hRooted
  have hSecond : second <:+ ts := (Leaves.suffix first _ second hSegment).trans hFirst
  -- The tokens behind each segment are the end of `ts`, and the name so far is in `ts`.
  have hStart : second <:+ ts ∧ Named ts name :=
    ⟨hSecond, (named_of_segment hSegment).of_suffix hFirst⟩
  refine (iterateWithin_induction
    (motive := fun (form : PathForm) here => here <:+ ts ∧ Named ts form.name)
    ?_ ?_ h hStart).2
  · rintro before next here behind ⟨hHere, -⟩ hStep
    refine ⟨(Leaves.suffix here _ behind hStep).trans hHere, ?_⟩
    rw [nextSegment?, get_bind] at hStep
    split at hStep
    · obtain ⟨⟨_, mid⟩, hJoint, hStep⟩ := Option.bind_eq_some_iff.mp hStep
      obtain ⟨⟨⟨other, _⟩, _⟩, hNext, hPair⟩ := Option.bind_eq_some_iff.mp hStep
      cases hPair
      have hMid : mid <:+ ts := (Leaves.suffix here _ mid hJoint).trans hHere
      exact (named_of_segment hNext).of_suffix hMid
    · cases hStep
  · rintro last here behind ⟨hHere, hName⟩ hStep
    exact ⟨(Leaves.suffix here _ behind hStep).trans hHere, hName⟩

/-- **The name of a type is one word.** -/
theorem isName_of_typeName? {s name : String} (h : typeName? s = some name) :
    IsName name.toList := by
  obtain ⟨tokens, hTokens, h⟩ := Option.bind_eq_some_iff.mp h
  split at h
  · rename_i form hPath
    cases h
    obtain ⟨token, hMem, hName⟩ := named_of_path hPath
    exact isName_of_name? (wellSpelled_of_tokens? hTokens token hMem) hName
  · cases h

end LiveMarkup.Code
