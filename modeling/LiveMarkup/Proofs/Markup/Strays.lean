import LiveMarkup.Proofs.Markup.OnePass
import LiveMarkup.Proofs.Markup.Soundness

/-!
# Stray ampersands

An ampersand in a value or in character data is there to begin a reference. One that
begins none is a stray, and a text with a stray in it is refused: what is told is the
first of them, by what is written where the reference would be.

A reference is one of the five names, or a number that is the code point of a
character. One thing more is taken for a reference: a number with a plus sign in
front. It is the only one, so a text without such signs is decoded exactly if all its
ampersands begin references.

## Main definitions

* `Refers`, `AllRefer` — an ampersand that is no stray, and a text without strays.
* `Tells` — what is told of a stray.
* `WrittenDocument.raws` — the values and the character data of a document.

## Main results

* `decode_eq_error_iff` — a text is refused for its first stray.
* `exists_decode_iff` — **a text is decoded exactly if it has no stray**.
* `readText_accepts_iff` — which values and which character data are accepted.
* `readText_signed` — a number with a sign is taken for a reference.
-/

namespace LiveMarkup.Markup

/-! ## References behind ampersands -/

/-- What stands behind an ampersand is, up to a semicolon, one of the given ways to
refer to a character. -/
def Refers (Is : List Char → Char → Prop) (behind : List Char) : Prop :=
  ∃ inside c rest, Is inside c ∧ behind = inside ++ ';' :: rest

/-- All ampersands of the text refer to characters. -/
def AllRefer (Is : List Char → Char → Prop) (text : List Char) : Prop :=
  ∀ front behind, text = front ++ '&' :: behind → Refers Is behind

/-- What is taken for a reference to a character. -/
def Tolerated (inside : List Char) (c : Char) : Prop :=
  IsReference inside c ∨ IsSigned inside c

theorem Tolerated.isAlphanum {inside : List Char} {c other : Char} (h : Tolerated inside c)
    (hMem : other ∈ inside) : other = '#' ∨ other = '+' ∨ other.isAlphanum = true := by
  rcases h with hReference | hSigned
  · exact (hReference.isAlphanum hMem).imp_right .inr
  · cases hSigned with
    | decimal hDigits =>
        simp only [List.mem_cons] at hMem
        rcases hMem with rfl | rfl | hMem
        · exact .inl rfl
        · exact .inr (.inl rfl)
        · exact .inr (.inr (hDigits.isAlphanum (by decide) hMem))
    | hexadecimal hMark hDigits =>
        simp only [List.mem_cons] at hMem
        rcases hMem with rfl | rfl | rfl | hMem
        · exact .inl rfl
        · rcases hMark with rfl | rfl <;> exact .inr (.inr (by decide))
        · exact .inr (.inl rfl)
        · exact .inr (.inr (hDigits.isAlphanum (by decide) hMem))

theorem Tolerated.not_mem {inside : List Char} {c : Char} (h : Tolerated inside c) :
    ';' ∉ inside ∧ '&' ∉ inside := by
  constructor
  · intro hMem
    rcases h.isAlphanum hMem with hEq | hEq | hEq <;> exact absurd hEq (by decide)
  · intro hMem
    rcases h.isAlphanum hMem with hEq | hEq | hEq <;> exact absurd hEq (by decide)

/-- What refers to a character is what the reader of references takes. -/
theorem refers_iff {behind : List Char} : Refers Tolerated behind ↔ ∃ inside rest c,
    Reference.splitSemicolon behind = some (inside, rest) ∧ Reference.resolve? inside = some c := by
  constructor
  · rintro ⟨inside, c, rest, hInside, rfl⟩
    exact ⟨inside, rest, c, splitSemicolon_append hInside.not_mem.1, resolve?_eq_some_iff.mpr hInside⟩
  · rintro ⟨inside, rest, c, hSplit, hResolve⟩
    exact ⟨inside, c, rest, resolve?_eq_some_iff.mp hResolve,
      (splitSemicolon_eq_some_iff.mp hSplit).1⟩

/-! ## Texts without strays -/

theorem allRefer_nil (Is : List Char → Char → Prop) : AllRefer Is [] := by
  intro front behind hEq
  exact absurd hEq.symm (List.append_ne_nil_of_right_ne_nil front (List.cons_ne_nil _ _))

theorem allRefer_amp {Is : List Char → Char → Prop} {behind : List Char} :
    AllRefer Is ('&' :: behind) ↔ Refers Is behind ∧ AllRefer Is behind := by
  constructor
  · intro h
    exact ⟨h [] behind rfl, fun front rest hEq => h ('&' :: front) rest (congrArg ('&' :: ·) hEq)⟩
  · rintro ⟨hHere, hBehind⟩ front rest hEq
    cases front with
    | nil =>
        cases hEq
        exact hHere
    | cons c front => exact hBehind front rest (List.cons.inj hEq).2

theorem allRefer_raw {Is : List Char → Char → Prop} {c : Char} (hRaw : c ≠ '&')
    {rest : List Char} : AllRefer Is (c :: rest) ↔ AllRefer Is rest := by
  constructor
  · exact fun h front behind hEq => h (c :: front) behind (congrArg (c :: ·) hEq)
  · intro h front behind hEq
    cases front with
    | nil => exact absurd (List.cons.inj hEq).1 hRaw
    | cons first front => exact h front behind (List.cons.inj hEq).2

/-- Where there is no ampersand there is no stray. -/
theorem allRefer_append {Is : List Char → Char → Prop} {front : List Char} (hFront : '&' ∉ front)
    (rest : List Char) : AllRefer Is (front ++ rest) ↔ AllRefer Is rest := by
  induction front with
  | nil => rfl
  | cons c front ih =>
      rw [List.mem_cons, not_or] at hFront
      rw [List.cons_append, allRefer_raw fun hEq => hFront.1 hEq.symm, ih hFront.2]

theorem allRefer_of_not_mem {Is : List Char → Char → Prop} {text : List Char} (h : '&' ∉ text) :
    AllRefer Is text := by
  rw [← List.append_nil text, allRefer_append h]
  exact allRefer_nil Is

/-- A reference has no stray in it. -/
theorem allRefer_reference {inside behind : List Char} {c : Char} (h : Tolerated inside c) :
    AllRefer Tolerated ('&' :: (inside ++ ';' :: behind)) ↔ AllRefer Tolerated behind := by
  have hRefers : Refers Tolerated (inside ++ ';' :: behind) := ⟨inside, c, behind, h, rfl⟩
  rw [allRefer_amp, allRefer_append h.not_mem.2, allRefer_raw (by decide)]
  exact and_iff_right hRefers

/-! ## What is decoded -/

/-- What is decoded has no stray. -/
theorem allRefer_of_decode {text value : List Char} (h : Reference.decode text = .ok value) :
    AllRefer Tolerated text := by
  induction text using Reference.decode.induct generalizing value with
  | case1 => exact allRefer_nil _
  | case2 rest hSplit =>
      rw [decode_unended hSplit] at h
      cases h
  | case3 rest inside behind hSplit hResolve =>
      rw [decode_ended hSplit, hResolve] at h
      cases h
  | case4 rest inside behind hSplit c hResolve _ ih =>
      rw [decode_ended hSplit, hResolve] at h
      obtain ⟨tail, hTail, -⟩ := exists_of_map_ok h
      obtain ⟨rfl, -⟩ := splitSemicolon_eq_some_iff.mp hSplit
      exact (allRefer_reference (resolve?_eq_some_iff.mp hResolve)).mpr (ih hTail)
  | case5 c rest hRaw ih =>
      rw [decode_raw hRaw] at h
      obtain ⟨tail, hTail, -⟩ := exists_of_map_ok h
      exact (allRefer_raw hRaw).mpr (ih hTail)

/-! ## What is told -/

/-- What is told of a stray with the given text behind it: all of it up to a semicolon,
or its first eight characters if there is none. -/
def Tells (behind written : List Char) : Prop :=
  (∃ rest, behind = written ++ ';' :: rest ∧ ';' ∉ written) ∨
    ';' ∉ behind ∧ written = behind.take 8

theorem splitSemicolon_eq_none_iff {s : List Char} :
    Reference.splitSemicolon s = none ↔ ';' ∉ s := by
  constructor
  · intro hNone hMem
    obtain ⟨before, behind, rfl, hBefore⟩ := List.eq_append_cons_of_mem hMem
    rw [splitSemicolon_append hBefore] at hNone
    cases hNone
  · intro hNot
    rw [Option.eq_none_iff_forall_ne_some]
    rintro ⟨before, behind⟩ hSome
    rw [(splitSemicolon_eq_some_iff.mp hSome).1] at hNot
    exact hNot (List.mem_append_right before List.mem_cons_self)

/-- A text that begins with a stray is refused for it. -/
theorem decode_stray_iff {behind written : List Char} (h : ¬ Refers Tolerated behind) :
    Reference.decode ('&' :: behind) = .error written ↔ Tells behind written := by
  rw [refers_iff] at h
  cases hSplit : Reference.splitSemicolon behind with
  | none =>
      have hEnd := splitSemicolon_eq_none_iff.mp hSplit
      rw [decode_unended hSplit, Except.error.injEq]
      constructor
      · exact fun hTold => .inr ⟨hEnd, hTold.symm⟩
      · rintro (⟨rest, rfl, -⟩ | ⟨-, hTold⟩)
        · exact absurd (List.mem_append_right written List.mem_cons_self) hEnd
        · exact hTold.symm
  | some parts =>
      obtain ⟨inside, rest⟩ := parts
      obtain ⟨hParts, hEnd⟩ := splitSemicolon_eq_some_iff.mp hSplit
      have hResolve : Reference.resolve? inside = none :=
        Option.eq_none_iff_forall_ne_some.mpr fun c hSome => h ⟨inside, rest, c, hSplit, hSome⟩
      rw [decode_ended hSplit, hResolve, Except.error.injEq]
      constructor
      · rintro rfl
        exact .inl ⟨rest, hParts, hEnd⟩
      · rintro (⟨other, hOther, hWritten⟩ | ⟨hNot, -⟩)
        · rw [hOther, splitSemicolon_append hWritten] at hSplit
          cases hSplit
          rfl
        · rw [hParts] at hNot
          exact absurd (List.mem_append_right inside List.mem_cons_self) hNot

theorem eq_error_of_map {ε α β : Type} {f : α → β} {result : Except ε α} {e : ε}
    (h : result.map f = .error e) : result = .error e := by
  cases result with
  | error other => exact congrArg Except.error (Except.error.inj h)
  | ok a => cases h

/-- In a text that is refused something is decoded and a stray stands behind it. -/
theorem exists_stray {text written : List Char} (h : Reference.decode text = .error written) :
    ∃ front behind value, text = front ++ '&' :: behind ∧ Reference.decode front = .ok value ∧
      ¬ Refers Tolerated behind := by
  have hNil : Reference.decode [] = .ok [] := by rw [Reference.decode]
  induction text using Reference.decode.induct with
  | case1 =>
      rw [hNil] at h
      cases h
  | case2 rest hSplit =>
      refine ⟨[], rest, [], rfl, hNil, ?_⟩
      rw [refers_iff, hSplit]
      rintro ⟨_, _, _, hSome, _⟩
      cases hSome
  | case3 rest inside behind hSplit hResolve =>
      refine ⟨[], rest, [], rfl, hNil, ?_⟩
      rw [refers_iff, hSplit]
      rintro ⟨_, _, c, hSome, hChar⟩
      cases hSome
      rw [hResolve] at hChar
      cases hChar
  | case4 rest inside behind hSplit c hResolve _ ih =>
      rw [decode_ended hSplit, hResolve] at h
      obtain ⟨rfl, hEnd⟩ := splitSemicolon_eq_some_iff.mp hSplit
      obtain ⟨front, back, value, rfl, hFront, hStray⟩ := ih (eq_error_of_map h)
      refine ⟨'&' :: (inside ++ ';' :: front), back, c :: value, ?_, ?_, hStray⟩
      · rw [List.cons_append, List.append_assoc, List.cons_append]
      · rw [decode_ended (splitSemicolon_append hEnd), hResolve, hFront]
        rfl
  | case5 c rest hRaw ih =>
      rw [decode_raw hRaw] at h
      obtain ⟨front, back, value, rfl, hFront, hStray⟩ := ih (eq_error_of_map h)
      refine ⟨c :: front, back, c :: value, rfl, ?_, hStray⟩
      rw [decode_raw hRaw, hFront]
      rfl

/-- **A text is decoded exactly if it has no stray.** -/
theorem exists_decode_iff {text : List Char} :
    (∃ value, Reference.decode text = .ok value) ↔ AllRefer Tolerated text := by
  refine ⟨fun ⟨value, h⟩ => allRefer_of_decode h, fun hAll => ?_⟩
  cases hDecode : Reference.decode text with
  | ok value => exact ⟨value, rfl⟩
  | error written =>
      obtain ⟨front, behind, _, hText, -, hStray⟩ := exists_stray hDecode
      exact absurd (hAll front behind hText) hStray

/-- **A text is refused for its first stray.** -/
theorem decode_eq_error_iff {text written : List Char} :
    Reference.decode text = .error written ↔ ∃ front behind, text = front ++ '&' :: behind ∧
      AllRefer Tolerated front ∧ ¬ Refers Tolerated behind ∧ Tells behind written := by
  -- What is in front of the stray is decoded, so what is told is told from there on.
  have hTold : ∀ {front behind value}, Reference.decode front = .ok value →
      ¬ Refers Tolerated behind →
      (Reference.decode (front ++ '&' :: behind) = .error written ↔ Tells behind written) := by
    intro front behind value hFront hStray
    rw [decode_append hFront, ← decode_stray_iff hStray]
    cases Reference.decode ('&' :: behind) with
    | error _ => rfl
    | ok _ => exact ⟨nofun, nofun⟩
  constructor
  · intro h
    obtain ⟨front, behind, value, rfl, hFront, hStray⟩ := exists_stray h
    exact ⟨front, behind, rfl, allRefer_of_decode hFront, hStray, (hTold hFront hStray).mp h⟩
  · rintro ⟨front, behind, rfl, hAll, hStray, hTells⟩
    obtain ⟨value, hFront⟩ := exists_decode_iff.mpr hAll
    exact (hTold hFront hStray).mpr hTells

/-! ## Signs -/

/-- Without signs only references are taken for references. -/
theorem allRefer_isReference_iff {text : List Char} (hSign : Unsigned text) :
    AllRefer IsReference text ↔ AllRefer Tolerated text := by
  constructor
  · intro h front behind hText
    obtain ⟨inside, c, rest, hInside, hBehind⟩ := h front behind hText
    exact ⟨inside, c, rest, .inl hInside, hBehind⟩
  · intro h front behind hText
    obtain ⟨inside, c, rest, hInside, rfl⟩ := h front behind hText
    have hInfix : '&' :: inside <:+: text := by
      refine ⟨front, ';' :: rest, ?_⟩
      rw [hText, List.append_assoc, List.cons_append]
    have hNot := (hSign.of_infix hInfix).not_isSigned (c := c)
    exact ⟨inside, c, rest, hInside.resolve_right hNot, rfl⟩

/-! ## Documents -/

mutual

/-- The values and the character data in a piece, as they are written. -/
def WrittenNode.raws : WrittenNode → List (List Char)
  | .element tag content =>
    tag.attributes.map WrittenAttribute.value ++ WrittenNode.rawsAll content
  | .text _ raw => [raw]
  | .cdata _ _ | .comment _ _ | .instruction _ _ _ => []

/-- The values and the character data in pieces in a row. -/
def WrittenNode.rawsAll : List WrittenNode → List (List Char)
  | [] => []
  | node :: rest => node.raws ++ WrittenNode.rawsAll rest

end

/-- The values and the character data of a document. -/
def WrittenDocument.raws (written : WrittenDocument) : List (List Char) :=
  match written.root with
  | none => []
  | some (tag, content) => (WrittenNode.element tag content).raws

theorem allRefer_of_readText {start : Text.Position} {raw : List Char} {value : String}
    (h : readText start raw = .ok value) : AllRefer Tolerated raw := by
  rw [readText] at h
  split at h
  · rename_i hDecode
    exact allRefer_of_decode hDecode
  · cases h

theorem allRefer_of_readAttributes {element : String} {before result : List Attribute}
    {written : List WrittenAttribute} (h : readAttributes element before written = .ok result) :
    ∀ a ∈ written, AllRefer Tolerated a.value := by
  induction written generalizing before with
  | nil => exact fun _ hMem => absurd hMem List.not_mem_nil
  | cons first rest ih =>
      obtain ⟨value, hValue, -, hRest⟩ := readAttributes_cons h
      intro a hMem
      rcases List.mem_cons.mp hMem with rfl | hMem
      · exact allRefer_of_readText hValue
      · exact ih hRest a hMem

/-- An element has no stray in its attributes if they are read, and none in its content
if that has none. -/
theorem WrittenTag.Reads.allRefer {written : WrittenTag} {pieces : List WrittenNode} {tag : Tag}
    {content : List Node} (h : written.Reads pieces tag content)
    (hPieces : ∀ raw ∈ WrittenNode.rawsAll pieces, AllRefer Tolerated raw) :
    ∀ raw ∈ (WrittenNode.element written pieces).raws, AllRefer Tolerated raw := by
  intro raw hMem
  rw [WrittenNode.raws, List.mem_append] at hMem
  rcases hMem with hMem | hMem
  · obtain ⟨a, hAttribute, rfl⟩ := List.mem_map.mp hMem
    exact allRefer_of_readAttributes h.attributes a hAttribute
  · exact hPieces raw hMem

mutual

theorem allRefer_of_read : (piece : WrittenNode) → {node : Option Node} → piece.read = .ok node →
    ∀ raw ∈ piece.raws, AllRefer Tolerated raw
  | .element written pieces, _, h => by
      obtain ⟨tag, content, hReads, -⟩ := reads_of_read_element h
      exact hReads.allRefer (allRefer_of_readAll pieces hReads.content)
  | .text start raw, _, h => by
      intro other hMem
      obtain rfl := List.mem_singleton.mp hMem
      rw [WrittenNode.read] at h
      split at h
      · rename_i hBlank
        refine allRefer_of_not_mem fun hAmp => ?_
        exact absurd (List.all_eq_true.mp hBlank '&' hAmp) (by decide)
      · obtain ⟨text, hText, -⟩ := exists_of_bind_ok h
        exact allRefer_of_readText hText
  | .cdata _ _, _, _ => fun _ hMem => nomatch hMem
  | .comment _ _, _, _ => fun _ hMem => nomatch hMem
  | .instruction _ _ _, _, _ => fun _ hMem => nomatch hMem

theorem allRefer_of_readAll : (pieces : List WrittenNode) → {nodes : List Node} →
    WrittenNode.readAll pieces = .ok nodes →
    ∀ raw ∈ WrittenNode.rawsAll pieces, AllRefer Tolerated raw
  | [], _, _ => fun _ hMem => nomatch hMem
  | piece :: rest, _, h => by
      obtain ⟨node, others, hPiece, hRest, -⟩ := readAll_cons h
      intro raw hMem
      rw [WrittenNode.rawsAll, List.mem_append] at hMem
      rcases hMem with hMem | hMem
      · exact allRefer_of_read piece hPiece raw hMem
      · exact allRefer_of_readAll rest hRest raw hMem

end

/-- **A document with a stray is malformed.** -/
theorem malformed_of_stray {source : String} {written : WrittenDocument} {raw : List Char}
    (hWritten : readWritten (dropByteOrderMark source.toList) = .ok written)
    (hMem : raw ∈ written.raws) (hStray : ¬ AllRefer Tolerated raw) :
    ∃ position fault, Document.read source = .error (.malformed position fault) := by
  have hSource : Document.read source = written.read := by
    rw [Document.read, hWritten]
    rfl
  rw [WrittenDocument.raws] at hMem
  cases hRoot : written.root with
  | none =>
      rw [hRoot] at hMem
      cases hMem
  | some root =>
      obtain ⟨tag, content⟩ := root
      rw [hRoot] at hMem
      cases hRead : written.read with
      | ok document =>
          simp only [WrittenDocument.read, hRoot] at hRead
          obtain ⟨_, _, hReads, -⟩ := WrittenTag.reads_of_checks hRead
          have hAll := hReads.allRefer (allRefer_of_readAll content hReads.content)
          exact absurd (hAll raw hMem) hStray
      | error e =>
          cases e with
          | malformed position fault => exact ⟨position, fault, by rw [hSource, hRead]⟩
          | noRootElement =>
              rw [WrittenDocument.root_eq_none hRead] at hRoot
              cases hRoot

/-! ## Values and character data -/

/-- **Which values and which character data are accepted.** Those without a stray, and
they alone; without signs, those in which every ampersand begins a reference. Any other
text is told to be malformed where it begins, for the first stray in it, and no document
has such a text for a value or for character data. -/
theorem readText_accepts_iff (start : Text.Position) (raw : List Char) :
    ((∃ value, readText start raw = .ok value) ↔ AllRefer Tolerated raw) ∧
    (Unsigned raw → ((∃ value, readText start raw = .ok value) ↔ AllRefer IsReference raw)) ∧
    (¬ AllRefer Tolerated raw → ∃ front behind written, raw = front ++ '&' :: behind ∧
      AllRefer Tolerated front ∧ ¬ Refers Tolerated behind ∧ Tells behind written ∧
      readText start raw =
        .error (.malformed start (.unknownReference (String.ofList written)))) ∧
    ∀ source written, readWritten (dropByteOrderMark source.toList) = .ok written →
      raw ∈ written.raws → ¬ AllRefer Tolerated raw →
      ∃ position fault, Document.read source = .error (.malformed position fault) := by
  have hAccepts : (∃ value, readText start raw = .ok value) ↔ AllRefer Tolerated raw := by
    refine ⟨fun ⟨value, h⟩ => allRefer_of_readText h, fun hAll => ?_⟩
    obtain ⟨value, hDecode⟩ := exists_decode_iff.mpr hAll
    exact ⟨String.ofList value, by rw [readText, hDecode]⟩
  refine ⟨hAccepts, fun hSign => hAccepts.trans (allRefer_isReference_iff hSign).symm, ?_,
    fun source written => malformed_of_stray⟩
  intro hStray
  cases hDecode : Reference.decode raw with
  | ok value => exact absurd (allRefer_of_decode hDecode) hStray
  | error written =>
      obtain ⟨front, behind, hRaw, hFront, hNot, hTells⟩ := decode_eq_error_iff.mp hDecode
      exact ⟨front, behind, written, hRaw, hFront, hNot, hTells, by rw [readText, hDecode]⟩

/-- A text with a name and a number is accepted. One with another name behind a name is
told to be malformed, and so is a document with it in an attribute. -/
theorem readText_accepts_iff_name :
    let accepted := ['a', '&', 'l', 't', ';', '&', '#', '6', '5', ';']
    let stray := ['&', 'l', 't', ';', '&', 'x', ';']
    Unsigned accepted ∧ (∃ value, readText .start accepted = .ok value) ∧
      ¬ AllRefer Tolerated stray ∧
      (∃ written, readText .start stray =
        .error (.malformed .start (.unknownReference written))) ∧
      ∃ position fault,
        Document.read "<a b='&lt;&x;'/>" = .error (.malformed position fault) := by
  intro accepted stray
  have hUnsigned : Unsigned accepted := by decide
  have hName : Tolerated ['l', 't'] '<' := .inl .lt
  have hNumber : Tolerated ['#', '6', '5'] 'A' := .inl (.decimal numeral_letter)
  have hAccepted : AllRefer Tolerated accepted := by
    rw [allRefer_raw (by decide)]
    exact (allRefer_reference hName).mpr ((allRefer_reference hNumber).mpr (allRefer_nil _))
  have hBehind : ¬ Refers Tolerated ['x', ';'] := by
    rw [refers_iff]
    rintro ⟨_, _, _, hSplit, hResolve⟩
    cases hSplit
    cases hResolve
  have hStray : ¬ AllRefer Tolerated stray := fun hAll => hBehind (hAll ['&', 'l', 't', ';'] _ rfl)
  obtain ⟨-, hAccepts, -⟩ := readText_accepts_iff .start accepted
  obtain ⟨-, -, hRefused, hDocument⟩ := readText_accepts_iff .start stray
  obtain ⟨_, _, written, -, -, -, -, hTold⟩ := hRefused hStray
  refine ⟨hUnsigned, ?_, hStray, ⟨_, hTold⟩, ?_⟩
  · exact (hAccepts hUnsigned).mpr ((allRefer_isReference_iff hUnsigned).mpr hAccepted)
  · exact hDocument "<a b='&lt;&x;'/>" _ rfl List.mem_cons_self hStray

/-- A number with a sign is taken for a reference, though the ampersand in front of it
begins none. -/
theorem readText_signed :
    Document.read "<a b=\"&#x+41;\"/>" = .ok ⟨[], ⟨"a", [⟨"b", "A"⟩], 1⟩, []⟩ ∧
      ¬ AllRefer IsReference ['&', '#', 'x', '+', '4', '1', ';'] := by
  have hFour : IsDigit 16 '4' 4 := ⟨by decide, .inl rfl⟩
  have hOne : IsDigit 16 '1' 1 := ⟨by decide, .inl rfl⟩
  have hDigits : Numeral 16 ['4', '1'] 'A'.toNat := .more (.digit hFour) hOne
  have hDecode : Reference.decode ['&', '#', 'x', '+', '4', '1', ';'] = .ok ['A'] := by
    rw [decode_ended rfl, resolve?_signed.2 'x' (.inl rfl) hDigits, Reference.decode]
    rfl
  have hAttributes : readAttributes "a" []
      [⟨⟨3, 1, 4⟩, "b", ⟨6, 1, 7⟩, ['&', '#', 'x', '+', '4', '1', ';']⟩] = .ok [⟨"b", "A"⟩] := by
    rw [readAttributes, readText, hDecode]
    rfl
  have hReads : WrittenTag.Reads ⟨⟨0, 1, 1⟩, "a",
      [⟨⟨3, 1, 4⟩, "b", ⟨6, 1, 7⟩, ['&', '#', 'x', '+', '4', '1', ';']⟩], none⟩ []
      ⟨"a", [⟨"b", "A"⟩], 1⟩ [] :=
    ⟨rfl, rfl, hAttributes, rfl, rfl⟩
  refine ⟨hReads.read_document [] [], fun hAll => ?_⟩
  obtain ⟨inside, c, rest, hInside, hBehind⟩ := hAll [] _ rfl
  have hEnd : ';' ∉ inside := Tolerated.not_mem (.inl hInside) |>.1
  have hSplit : Reference.splitSemicolon _ = some (inside, rest) := splitSemicolon_append hEnd
  rw [← hBehind] at hSplit
  cases hSplit
  rcases hInside.isAlphanum (by decide : '+' ∈ _) with hEq | hAlphanum
  · exact absurd hEq (by decide)
  · exact absurd hAlphanum (by decide)

end LiveMarkup.Markup
