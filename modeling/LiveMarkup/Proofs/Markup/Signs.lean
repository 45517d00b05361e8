import LiveMarkup.Proofs.Markup.Decoding
import LiveMarkup.Proofs.Markup.Piece

/-!
# Signs in references

A plus sign in front of the number of a reference is read, but nothing that is
written with one is a layout of a document. Texts are put together from pieces, so
what is shown of each piece is that no sign begins in it whatever follows; comments,
sections, instructions and declarations may hold anything and are left aside.

## Main results

* `resolve?_signed` — a sign is read in front of any number.
* `Spells.signFree` — no spelling has a sign.
* `DocumentText.unsigned` — **no layout has a sign**, unless in a comment or the like.
-/

namespace LiveMarkup.Markup

open Reader (infix_of_append)

/-! ## Signs are read -/

/-- **A sign is read** in front of any number. -/
theorem resolve?_signed {digits : List Char} {c : Char} :
    (Numeral 10 digits c.toNat → Reference.resolve? ('#' :: '+' :: digits) = some c) ∧
      ∀ x, x = 'x' ∨ x = 'X' → Numeral 16 digits c.toNat →
        Reference.resolve? ('#' :: x :: '+' :: digits) = some c :=
  ⟨fun hDigits => resolve?_of_isSigned (.decimal hDigits),
    fun _ hMark hDigits => resolve?_of_isSigned (.hexadecimal hMark hDigits)⟩

/-! ## Texts without signs -/

/-- A text that is no beginning of a reference does not become one by what follows. -/
theorem IsReference.not_signed {inside sign rest : List Char} {c : Char} (h : IsReference inside c)
    (hEnd : ';' ∉ sign) (hPlus : '+' ∈ sign) : ¬ sign <+: inside ++ ';' :: rest := by
  intro hPrefix
  rcases Nat.lt_or_ge inside.length sign.length with hLong | hShort
  · have hInside : inside ++ [';'] <+: sign := by
      refine List.prefix_of_prefix_length_le ⟨rest, by simp⟩ hPrefix ?_
      rw [List.length_append]
      exact hLong
    exact hEnd (hInside.subset (List.mem_append_right inside List.mem_cons_self))
  · have hSign : sign <+: inside :=
      List.prefix_of_prefix_length_le hPrefix (List.prefix_append _ _) hShort
    rcases h.isAlphanum (hSign.subset hPlus) with hEq | hAlphanum
    · exact absurd hEq (by decide)
    · exact absurd hAlphanum (by decide)

/-- No sign begins in the text, whatever follows it. -/
def SignFree (text : List Char) : Prop :=
  ∀ sign rest, ';' ∉ sign → '+' ∈ sign → '&' :: sign <:+: text ++ rest → '&' :: sign <:+: rest

theorem signFree_of_not_mem {text : List Char} (h : '&' ∉ text) : SignFree text :=
  fun _ _ _ _ hInfix => infix_of_append h hInfix

theorem SignFree.append {front back : List Char} (hFront : SignFree front) (hBack : SignFree back) :
    SignFree (front ++ back) := by
  intro sign rest hEnd hPlus hInfix
  rw [List.append_assoc] at hInfix
  exact hBack sign rest hEnd hPlus (hFront sign _ hEnd hPlus hInfix)

theorem SignFree.unsigned {text : List Char} (h : SignFree text) : Unsigned text := by
  have hNot : ∀ sign, ';' ∉ sign → '+' ∈ sign → ¬ '&' :: sign <:+: text := by
    intro sign hEnd hPlus hInfix
    rw [← List.append_nil text] at hInfix
    exact List.cons_ne_nil _ _ (List.infix_nil.mp (h sign [] hEnd hPlus hInfix))
  exact ⟨hNot _ (by decide) (by decide), hNot _ (by decide) (by decide),
    hNot _ (by decide) (by decide)⟩

theorem IsReference.signFree {inside : List Char} {c : Char} (h : IsReference inside c) :
    SignFree ('&' :: (inside ++ [';'])) := by
  intro sign rest hEnd hPlus hInfix
  rw [List.cons_append, List.infix_cons_iff] at hInfix
  rcases hInfix with hPrefix | hInfix
  · rw [List.append_assoc] at hPrefix
    exact absurd (List.cons_prefix_cons.mp hPrefix).2 (h.not_signed hEnd hPlus)
  · refine infix_of_append ?_ hInfix
    intro hMem
    rcases List.mem_append.mp hMem with hInside | hLast
    · rcases h.isAlphanum hInside with hEq | hAlphanum
      · exact absurd hEq (by decide)
      · exact absurd hAlphanum (by decide)
    · exact absurd (List.mem_singleton.mp hLast) (by decide)

/-- **No spelling has a sign.** -/
theorem Spells.signFree {legal : Char → Prop} (hAmp : ¬ legal '&') {written text : List Char}
    (h : Spells legal written text) : SignFree written := by
  induction h with
  | nil => exact signFree_of_not_mem List.not_mem_nil
  | @raw c written text hLegal _ ih =>
      have hThis : SignFree [c] :=
        signFree_of_not_mem fun hMem => hAmp (List.mem_singleton.mp hMem ▸ hLegal)
      exact hThis.append ih
  | @reference c inside written text hInside _ ih =>
      have hBoth := hInside.signFree.append ih
      rwa [List.cons_append, List.append_assoc] at hBoth

/-! ## Layouts without signs -/

theorem IsName.signFree {name : List Char} (h : IsName name) : SignFree name :=
  signFree_of_not_mem fun hMem => absurd (h.isNameChar '&' hMem) (by decide)

theorem IsGap.signFree {gap : List Char} (h : IsGap gap) : SignFree gap :=
  signFree_of_not_mem fun hMem => absurd (h '&' hMem) (by decide)

theorem AttributeText.signFree {piece : List Char} {first : Attribute}
    (h : AttributeText piece first) : SignFree piece := by
  cases h with
  | @mk _ _ _ _ _ _ quote _ hGap hName hBefore hBehind hQuote hValue =>
      have hAmp : ¬ LegalInValue quote '&' := fun hLegal => hLegal.2.2 rfl
      have hQuoteFree : SignFree [quote] :=
        signFree_of_not_mem (by rcases hQuote with rfl | rfl <;> decide)
      exact hGap.signFree.append (hName.signFree.append (hBefore.signFree.append
        ((signFree_of_not_mem (by decide)).append (hBehind.signFree.append
          (hQuoteFree.append ((hValue.signFree hAmp).append hQuoteFree))))))

theorem AttributesText.signFree {text : List Char} {attributes : List Attribute}
    (h : AttributesText text attributes) : SignFree text := by
  induction h with
  | nil => exact signFree_of_not_mem List.not_mem_nil
  | cons hPiece _ ih => exact hPiece.signFree.append ih

theorem TagText.signFree {tag name : List Char} {attributes : List Attribute}
    (h : TagText tag name attributes) : SignFree tag ∧ IsName name := by
  cases h with
  | mk hName hAttributes _ hGap =>
      exact ⟨(signFree_of_not_mem (by decide)).append
        (hName.signFree.append (hAttributes.signFree.append hGap.signFree)), hName⟩

theorem ClosingText.signFree {name inner behind : List Char} (h : ClosingText name inner behind)
    (hName : IsName name) (hInner : SignFree inner) : SignFree behind := by
  cases h with
  | itself => exact signFree_of_not_mem (by decide)
  | tag hGap =>
      exact (signFree_of_not_mem (by decide)).append (hInner.append
        ((signFree_of_not_mem (by decide)).append (hName.signFree.append
          (hGap.signFree.append (signFree_of_not_mem (by decide))))))

/-- The text has none of the characters by which comments, sections, instructions and
declarations are told. -/
def Bare (text : List Char) : Prop :=
  '!' ∉ text ∧ '?' ∉ text

instance (text : List Char) : Decidable (Bare text) :=
  inferInstanceAs (Decidable ('!' ∉ text ∧ '?' ∉ text))

theorem bare_append {front back : List Char} : Bare (front ++ back) ↔ Bare front ∧ Bare back := by
  simp only [Bare, List.mem_append, not_or]
  tauto

theorem CommentText.not_bare {piece body : List Char} (h : CommentText piece body) :
    ¬ Bare piece := by
  obtain ⟨rfl, _⟩ := h
  exact fun hBare => hBare.1 (by simp)

theorem SectionText.not_bare {piece body : List Char} (h : SectionText piece body) :
    ¬ Bare piece := by
  obtain ⟨rfl, _⟩ := h
  exact fun hBare => hBare.1 (by simp)

theorem InstructionText.not_bare {piece target data : List Char}
    (h : InstructionText piece target data) : ¬ Bare piece := by
  cases h
  exact fun hBare => hBare.2 (by simp)

theorem DeclarationText.not_bare {piece : List Char} (h : DeclarationText piece) :
    ¬ Bare piece := by
  cases h with
  | mk _ hPiece =>
      obtain ⟨rfl, _⟩ := hPiece
      exact fun hBare => hBare.2 (by simp)

theorem ClosingText.bare {name inner behind : List Char} (h : ClosingText name inner behind)
    (hBare : Bare behind) : Bare inner := by
  cases h with
  | itself => decide
  | tag _ => exact (bare_append.mp (bare_append.mp hBare).2).1

theorem ContentText.signFree {afterRun : Bool} {line : Nat} {text : List Char} {nodes : List Node}
    (h : ContentText afterRun line text nodes) (hBare : Bare text) : SignFree text := by
  induction h with
  | nil => exact signFree_of_not_mem List.not_mem_nil
  | blank _ hBlank _ ih =>
      have hRun : SignFree _ :=
        signFree_of_not_mem fun hMem => absurd (hBlank '&' hMem) (by decide)
      exact hRun.append (ih (bare_append.mp hBare).2)
  | run hValue _ _ ih =>
      have hAmp : ¬ LegalInText '&' := fun hLegal => hLegal.2 rfl
      exact (hValue.signFree hAmp).append (ih (bare_append.mp hBare).2)
  | cdata hPiece _ _ => exact absurd (bare_append.mp hBare).1 hPiece.not_bare
  | comment hPiece _ _ => exact absurd (bare_append.mp hBare).1 hPiece.not_bare
  | instruction hPiece _ _ => exact absurd (bare_append.mp hBare).1 hPiece.not_bare
  | element hTag _ hClosing _ ihContent ih =>
      obtain ⟨hElement, hText⟩ := bare_append.mp hBare
      obtain ⟨hTagFree, hName⟩ := hTag.signFree
      have hInner := ihContent (hClosing.bare (bare_append.mp hElement).2)
      exact (hTagFree.append (hClosing.signFree hName hInner)).append (ih hText)

theorem ElementText.signFree {line : Nat} {text : List Char} {tag : Tag} {content : List Node}
    (h : ElementText line text tag content) (hBare : Bare text) : SignFree text := by
  cases h with
  | mk hTag hContent hClosing =>
      obtain ⟨hTagFree, hName⟩ := hTag.signFree
      have hInner := hContent.signFree (hClosing.bare (bare_append.mp hBare).2)
      exact hTagFree.append (hClosing.signFree hName hInner)

theorem AsidesText.signFree {text : List Char} {instructions : List Instruction}
    (h : AsidesText text instructions) (hBare : Bare text) : SignFree text := by
  cases h with
  | gap hGap => exact hGap.signFree
  | comment _ hPiece _ =>
      exact absurd (bare_append.mp (bare_append.mp hBare).2).1 hPiece.not_bare
  | instruction _ hPiece _ =>
      exact absurd (bare_append.mp (bare_append.mp hBare).2).1 hPiece.not_bare

/-- **No layout has a sign** where a reference would have its number, but for what
comments and the like hold. -/
theorem DocumentText.unsigned {text : List Char} {document : Document}
    (h : DocumentText text document) (hBare : Bare text) : Unsigned text := by
  cases h with
  | mk hMark hDeclaration hFront hRoot hBack =>
      obtain ⟨_, hBare⟩ := bare_append.mp hBare
      obtain ⟨hDeclared, hBare⟩ := bare_append.mp hBare
      obtain ⟨hFrontBare, hBare⟩ := bare_append.mp hBare
      obtain ⟨hRootBare, hBackBare⟩ := bare_append.mp hBare
      have hRest := (hFront.signFree hFrontBare).append
        ((hRoot.signFree hRootBare).append (hBack.signFree hBackBare))
      rcases hDeclaration with hThere | ⟨rfl, _⟩
      · exact absurd hDeclared hThere.not_bare
      · refine SignFree.unsigned (SignFree.append ?_ hRest)
        exact signFree_of_not_mem (by rcases hMark with rfl | rfl <;> decide)

end LiveMarkup.Markup
