import LiveMarkup.Proofs.Markup.Decoding
import Mathlib.Data.List.Forall2

/-!
# References are replaced in one pass

A text may be encoded character by character, each in a way of its own: as itself,
by one of the five names, or by its code point in decimal or hexadecimal. However it
is encoded, the references are replaced by the characters that they stand for, and
that gives the text.

What has been decoded is finished. It is not looked at again, so it does not matter
if it reads like the beginning of a reference, and what follows it is decoded as if
nothing stood in front.

## Main results

* `decode_append` — what stands behind a text that is decoded is decoded on its own.
* `decode_of_encodes` — a character is decoded from any way to write it.
* `decode_encoded` — **decoding inverts every encoding, in one pass**.
-/

namespace LiveMarkup.Markup

/-! ## Texts in a row -/

/-- **What stands behind a text that is decoded is decoded on its own.** -/
theorem decode_append {front text : List Char} (h : Reference.decode front = .ok text)
    (back : List Char) :
    Reference.decode (front ++ back) = (Reference.decode back).map (text ++ ·) := by
  induction front using Reference.decode.induct generalizing text with
  | case1 =>
      rw [Reference.decode] at h
      obtain rfl := Except.ok.inj h
      rw [List.nil_append]
      cases Reference.decode back <;> rfl
  | case2 rest hSplit =>
      rw [decode_unended hSplit] at h
      cases h
  | case3 rest inside behind hSplit hResolve =>
      rw [decode_ended hSplit, hResolve] at h
      cases h
  | case4 rest inside behind hSplit c hResolve _ ih =>
      rw [decode_ended hSplit, hResolve] at h
      obtain ⟨tail, hTail, rfl⟩ := exists_of_map_ok h
      obtain ⟨rfl, hEnd⟩ := splitSemicolon_eq_some_iff.mp hSplit
      rw [List.cons_append, List.append_assoc, List.cons_append,
        decode_ended (splitSemicolon_append hEnd), hResolve, ih hTail]
      cases Reference.decode back <;> rfl
  | case5 c rest hRaw ih =>
      rw [decode_raw hRaw] at h
      obtain ⟨tail, hTail, rfl⟩ := exists_of_map_ok h
      rw [List.cons_append, decode_raw hRaw, ih hTail]
      cases Reference.decode back <;> rfl

/-! ## Encodings -/

/-- A way to write a character: as itself, if it is no ampersand, or as a reference. -/
inductive Encodes (c : Char) : List Char → Prop where
  | itself (hRaw : c ≠ '&') : Encodes c [c]
  | reference {inside : List Char} (hInside : IsReference inside c) :
      Encodes c ('&' :: (inside ++ [';']))

/-- **A character is decoded from any way to write it.** -/
theorem decode_of_encodes {c : Char} {piece : List Char} (h : Encodes c piece) :
    Reference.decode piece = .ok [c] := by
  have hNil : Reference.decode [] = .ok [] := by rw [Reference.decode]
  cases h with
  | itself hRaw =>
      rw [decode_raw hRaw, hNil]
      rfl
  | reference hInside =>
      rw [decode_reference hInside, hNil]
      rfl

/-- A text is decoded from its characters, each written in a way of its own. -/
theorem decode_flatten {text : List Char} {pieces : List (List Char)}
    (h : List.Forall₂ Encodes text pieces) : Reference.decode pieces.flatten = .ok text := by
  induction h with
  | nil => rw [List.flatten_nil, Reference.decode]
  | cons hPiece _ ih =>
      rw [List.flatten_cons, decode_append (decode_of_encodes hPiece), ih]
      rfl

/-- **Decoding inverts every encoding, in one pass.** Characters that are written each
in any of the ways there are give the text that is written so. What a text has been
decoded to stays as it is and is not decoded again, whatever follows the text, and if
two texts are decoded, one behind the other is decoded to both results in a row. -/
theorem decode_encoded :
    (∀ text pieces, List.Forall₂ Encodes text pieces →
      Reference.decode pieces.flatten = .ok text) ∧
    (∀ front text, Reference.decode front = .ok text → ∀ back,
      Reference.decode (front ++ back) = (Reference.decode back).map (text ++ ·)) ∧
    ∀ front text back tail, Reference.decode front = .ok text →
      Reference.decode back = .ok tail → Reference.decode (front ++ back) = .ok (text ++ tail) := by
  refine ⟨fun text pieces h => decode_flatten h, fun front text h => decode_append h, ?_⟩
  intro front text back tail hFront hBack
  rw [decode_append hFront, hBack]
  rfl

/-- A reference that is spelled out: the ampersand by its name, one letter with zeros in
front and in capitals, the other as itself. It is decoded to the text of a reference,
which stays one, also where the rest of it follows as it is. -/
theorem decode_encoded_twice :
    let text := ['&', 'l', 't', ';']
    let pieces := [['&', 'a', 'm', 'p', ';'], ['&', '#', 'X', '0', '0', '6', 'C', ';'], ['t'],
      ['&', '#', '5', '9', ';']]
    List.Forall₂ Encodes text pieces ∧ Reference.decode pieces.flatten = .ok text ∧
      Reference.decode (['&', 'a', 'm', 'p', ';'] ++ ['l', 't', ';']) = .ok text := by
  intro text pieces
  have hZero : IsDigit 16 '0' 0 := ⟨by decide, .inl rfl⟩
  have hSix : IsDigit 16 '6' 6 := ⟨by decide, .inl rfl⟩
  have hTwelve : IsDigit 16 'C' 12 := ⟨by decide, .inr rfl⟩
  have hFive : IsDigit 10 '5' 5 := ⟨by decide, .inl rfl⟩
  have hNine : IsDigit 10 '9' 9 := ⟨by decide, .inl rfl⟩
  have hLetter : IsReference ['#', 'X', '0', '0', '6', 'C'] 'l' :=
    .hexadecimal (.inr rfl) (.more (.more (.more (.digit hZero) hZero) hSix) hTwelve)
  have hSemicolon : IsReference ['#', '5', '9'] ';' :=
    .decimal (.more (.digit hFive) hNine)
  have hAmp : Encodes '&' ['&', 'a', 'm', 'p', ';'] := .reference .amp
  have hPieces : List.Forall₂ Encodes text pieces :=
    .cons hAmp (.cons (.reference hLetter) (.cons (.itself (by decide))
      (.cons (.reference hSemicolon) .nil)))
  obtain ⟨hEncoded, -, hRow⟩ := decode_encoded
  have hFirst : Reference.decode ['&', 'a', 'm', 'p', ';'] = .ok ['&'] :=
    hEncoded _ [_] (.cons hAmp .nil)
  have hRest : Reference.decode ['l', 't', ';'] = .ok ['l', 't', ';'] :=
    hEncoded _ [['l'], ['t'], [';']] (.cons (.itself (by decide)) (.cons (.itself (by decide))
      (.cons (.itself (by decide)) .nil)))
  exact ⟨hPieces, hEncoded _ _ hPieces, hRow _ _ _ _ hFirst hRest⟩

end LiveMarkup.Markup
