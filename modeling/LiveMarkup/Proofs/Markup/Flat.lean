import LiveMarkup.Proofs.Markup.Layout

/-!
# Rows of elements without references

The commonest way to write elements that hold nothing: white space in front of each,
attributes whose values stand for themselves, and no closing tag. Whether a text
is one of this kind can be computed, so a text that is given once and for all is
shown to be a layout without going through it by hand.

## Main results

* `spells_self` — characters that are legal as they stand spell themselves.
* `PlainTag.tagText` — a tag with plain attributes.
* `contentText_of_rows` — **elements in a row are a layout of their nodes**.
-/

namespace LiveMarkup.Markup

/-- Characters that are legal as they stand spell themselves. -/
theorem spells_self {legal : Char → Prop} {text : List Char} (h : ∀ c ∈ text, legal c) :
    Spells legal text text := by
  induction text with
  | nil => exact .nil
  | cons c rest ih =>
      exact .raw (h c List.mem_cons_self) (ih fun other hMem => h other (List.mem_cons_of_mem c hMem))

instance (name : List Char) : Decidable (IsName name) :=
  match name with
  | [] => isFalse (by rintro ⟨first, rest, hEq, -⟩; cases hEq)
  | first :: rest =>
    decidable_of_iff (Grammar.isNameStart first = true ∧ rest.all Grammar.isNameChar = true)
      ⟨fun h => ⟨first, rest, rfl, h.1, List.all_eq_true.mp h.2⟩, by
        rintro ⟨_, _, hEq, hFirst, hRest⟩
        cases hEq
        exact ⟨hFirst, List.all_eq_true.mpr hRest⟩⟩

/-- An attribute whose value stands for itself, with the white space in front of it. -/
structure PlainAttribute where
  gap : String
  name : String
  quote : Char
  value : String

namespace PlainAttribute

/-- The attribute as it is written. -/
def text (a : PlainAttribute) : List Char :=
  a.gap.toList ++ (a.name.toList ++ (['='] ++ ([a.quote] ++ (a.value.toList ++ [a.quote]))))

/-- The attribute that is written. -/
def meant (a : PlainAttribute) : Attribute :=
  ⟨a.name, a.value⟩

/-- Nothing stands where it must not. -/
def IsLegal (a : PlainAttribute) : Prop :=
  (a.gap.toList ≠ [] ∧ IsGap a.gap.toList) ∧ IsName a.name.toList ∧
    (a.quote = '"' ∨ a.quote = '\'') ∧ ∀ c ∈ a.value.toList, LegalInValue a.quote c

instance (a : PlainAttribute) : Decidable a.IsLegal :=
  have : Decidable (∀ c ∈ a.value.toList, LegalInValue a.quote c) :=
    List.decidableBAll (LegalInValue a.quote) a.value.toList
  inferInstanceAs (Decidable (_ ∧ _))

theorem attributeText {a : PlainAttribute} (h : a.IsLegal) : AttributeText a.text a.meant := by
  have hNoGap : IsGap [] := by decide
  have hText :=
    AttributeText.mk h.1.1 h.1.2 h.2.1 hNoGap hNoGap h.2.2.1 (spells_self h.2.2.2)
  rwa [String.ofList_toList, String.ofList_toList] at hText

end PlainAttribute

theorem attributesText_of_plain {attributes : List PlainAttribute}
    (h : ∀ a ∈ attributes, a.IsLegal) :
    AttributesText (attributes.flatMap PlainAttribute.text)
      (attributes.map PlainAttribute.meant) := by
  induction attributes with
  | nil => exact .nil
  | cons a rest ih =>
      rw [List.flatMap_cons, List.map_cons]
      exact .cons (a.attributeText (h a List.mem_cons_self))
        (ih fun other hMem => h other (List.mem_cons_of_mem a hMem))

/-- The tag of an element with plain attributes, up to what closes it. -/
structure PlainTag where
  name : String
  attributes : List PlainAttribute

namespace PlainTag

/-- The tag as it is written. -/
def text (tag : PlainTag) : List Char :=
  ['<'] ++ (tag.name.toList ++ (tag.attributes.flatMap PlainAttribute.text ++ []))

/-- The tag that is written on a line. -/
def meant (tag : PlainTag) (line : Nat) : Tag :=
  ⟨tag.name, tag.attributes.map PlainAttribute.meant, line⟩

/-- Nothing stands where it must not, and no attribute occurs twice. -/
def IsLegal (tag : PlainTag) : Prop :=
  IsName tag.name.toList ∧ (∀ a ∈ tag.attributes, a.IsLegal) ∧
    ((tag.attributes.map PlainAttribute.meant).map Attribute.name).Nodup

instance (tag : PlainTag) : Decidable tag.IsLegal :=
  inferInstanceAs (Decidable (_ ∧ _ ∧ _))

theorem tagText {tag : PlainTag} (h : tag.IsLegal) :
    TagText tag.text tag.name.toList (tag.attributes.map PlainAttribute.meant) :=
  .mk h.1 (attributesText_of_plain h.2.1) h.2.2 (by decide)

/-- A tag that is closed by another one is an element with what stands between them. -/
theorem elementText {tag : PlainTag} (h : tag.IsLegal) {line : Nat} {inner : List Char}
    {content : List Node} (hContent : ContentText false (lineAfter line tag.text) inner content) :
    ElementText line
      (tag.text ++ (['>'] ++ (inner ++ (['<', '/'] ++ (tag.name.toList ++ ([] ++ ['>']))))))
      (tag.meant line) content := by
  have hNoGap : IsGap [] := by decide
  have hText := ElementText.mk (tagText h) hContent (.tag hNoGap)
  rwa [String.ofList_toList] at hText

end PlainTag

/-- An element that closes itself, with the white space in front of it. -/
structure PlainRow where
  blank : String
  tag : PlainTag

namespace PlainRow

/-- The row as it is written. -/
def text (row : PlainRow) : List Char :=
  row.blank.toList ++ (row.tag.text ++ ['/', '>'])

/-- Nothing stands where it must not. -/
def IsLegal (row : PlainRow) : Prop :=
  (row.blank.toList ≠ [] ∧ IsBlank row.blank.toList) ∧ row.tag.IsLegal

instance (row : PlainRow) : Decidable row.IsLegal :=
  inferInstanceAs (Decidable (_ ∧ _))

end PlainRow

/-- The lines that rows stand on, if the white space in front of the first begins on
a line. -/
def linesOfRows (line : Nat) : List PlainRow → List Nat
  | [] => []
  | row :: rest =>
    lineAfter line row.blank.toList ::
      linesOfRows (lineAfter (lineAfter line row.blank.toList) (row.tag.text ++ ['/', '>'])) rest

/-- The nodes that rows mean on their lines. -/
def nodesOfRows (rows : List PlainRow) (lines : List Nat) : List Node :=
  List.zipWith (fun row line => .element (row.tag.meant line) []) rows lines

/-- **Elements in a row are a layout of their nodes**, with white space behind the
last of them. -/
theorem contentText_of_rows {rows : List PlainRow} (hRows : ∀ row ∈ rows, row.IsLegal)
    {blank : List Char} (hBlank : blank ≠ [] ∧ IsBlank blank) (line : Nat) :
    ContentText false line (rows.flatMap PlainRow.text ++ blank)
      (nodesOfRows rows (linesOfRows line rows)) := by
  induction rows generalizing line with
  | nil =>
      have hText : [].flatMap PlainRow.text ++ blank = blank ++ [] := by simp
      rw [hText]
      exact .blank hBlank.1 hBlank.2 .nil
  | cons row rest ih =>
      obtain ⟨⟨hNe, hIsBlank⟩, hTag⟩ := hRows row List.mem_cons_self
      have hRest := ih fun other hMem => hRows other (List.mem_cons_of_mem row hMem)
      have hText : (row :: rest).flatMap PlainRow.text ++ blank = row.blank.toList ++
          ((row.tag.text ++ ['/', '>']) ++ (rest.flatMap PlainRow.text ++ blank)) := by
        simp [PlainRow.text]
      have hElement : ContentText true (lineAfter line row.blank.toList) _ _ :=
        .element (row.tag.tagText hTag) .nil .itself
          (hRest (lineAfter (lineAfter line row.blank.toList) (row.tag.text ++ ['/', '>'])))
      rw [String.ofList_toList] at hElement
      rw [hText, linesOfRows, nodesOfRows, List.zipWith_cons_cons]
      exact .blank hNe hIsBlank hElement

end LiveMarkup.Markup
