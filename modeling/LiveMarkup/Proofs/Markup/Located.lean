import LiveMarkup.Proofs.Markup.FirstViolation

/-!
# Where faults are told

Whatever is told of a text is told at a place in it: behind some front of the text, with
the line and the column that this front leads to. A byte-order mark is not counted.

Readers move over the text from its beginning on and mark the places where constructs
fail, so they stay in the text, and so do their marks. As every rule of the grammar is
put together from a few readers, the fact is carried by a class, whose instances follow
the definitions. What is told of a text that obeys the grammar is told at the front of a
violation, which is in the text as well.

## Main definitions

* `Stays` — a reader stays in the text, and its marks are at places of the text.
* `reportPosition` — the position that is told for the place behind a front of a source.

## Main results

* `Document.exists_front_of_malformed` — **faults are told at places of the source**.
-/

namespace LiveMarkup.Markup

open Reader
open Text (Position)

/-! ## Places -/

/-- The position is that of a place in the text. -/
def IsPlace (text : List Char) (p : Position) : Prop :=
  ∃ front, front <+: text ∧ p = Position.start.advance front

/-- The cursor stands in the text. -/
def Cursor.In (text : List Char) (cursor : Cursor) : Prop :=
  ∃ front, (Cursor.start text).Past front cursor

theorem Cursor.in_start (text : List Char) : (Cursor.start text).In text :=
  ⟨[], .refl _⟩

theorem Cursor.In.past {text piece : List Char} {cursor after : Cursor} (h : cursor.In text)
    (hPast : cursor.Past piece after) : after.In text := by
  obtain ⟨front, hFront⟩ := h
  exact ⟨front ++ piece, hFront.trans hPast⟩

theorem Cursor.In.isPlace {text : List Char} {cursor : Cursor} (h : cursor.In text) :
    IsPlace text cursor.position := by
  obtain ⟨front, hFront⟩ := h
  exact ⟨front, ⟨cursor.rest, hFront.rest.symm⟩, hFront.position⟩

theorem isPlace_failed {text : List Char} {trail : Trail} {p : Position} (c : Construct)
    (before : Nat) (hTrail : IsPlace text trail.furthest) (hHere : IsPlace text p) :
    IsPlace text (trail.failed c p before).furthest := by
  rw [Trail.failed]
  split
  · exact hTrail
  split
  · exact hHere
  split
  · exact hHere
  · exact hTrail

/-! ## Readers -/

/-- A reader moves over the text, and in a text its marks are at places of the text. -/
class Stays {α : Type} (r : Reader α) : Prop where
  past : ∀ {cursor a after}, CanTake r cursor a after → ∃ piece, cursor.Past piece after
  marked : ∀ {text cursor trail}, cursor.In text → IsPlace text trail.furthest →
    IsPlace text (r cursor trail).2.furthest

section Steps

variable {α β : Type} {r s : Reader α}

/-- A reader that marks nothing has only to move over the text. -/
theorem stays_of_past (hMarks : ∀ cursor trail, (r cursor trail).2 = trail)
    (hPast : ∀ {cursor a after}, CanTake r cursor a after → ∃ piece, cursor.Past piece after) :
    Stays r where
  past := hPast
  marked {_ cursor trail} _ hTrail := by rwa [hMarks cursor trail]

instance (a : α) : Stays (pure a : Reader α) := by
  refine stays_of_past (fun _ _ => rfl) fun {cursor b after} h => ?_
  obtain ⟨-, rfl⟩ := h.of_pure
  exact ⟨[], .refl cursor⟩

instance : Stays (Reader.fail : Reader α) :=
  stays_of_past (fun _ _ => rfl) fun h => absurd (refused_fail _) h.not_refused

instance : Stays Reader.position := by
  refine stays_of_past (fun _ _ => rfl) fun {cursor b after} h => ?_
  obtain ⟨-, rfl⟩ := h.of_position
  exact ⟨[], .refl cursor⟩

instance stays_bind {f : α → Reader β} [hFirst : Stays r] [hThen : ∀ a, Stays (f a)] :
    Stays (r >>= f) where
  past h := by
    obtain ⟨a, mid, hTake, hRest⟩ := h.of_bind
    obtain ⟨front, hFront⟩ := hFirst.past hTake
    obtain ⟨back, hBack⟩ := (hThen a).past hRest
    exact ⟨front ++ back, hFront.trans hBack⟩
  marked {text cursor trail} hIn hTrail := by
    have hMarked := hFirst.marked hIn hTrail
    change IsPlace text (Reader.bind r f cursor trail).2.furthest
    rw [Reader.bind]
    split
    · rename_i a mid between hRun
      rw [hRun] at hMarked
      obtain ⟨piece, hPast⟩ := hFirst.past ⟨trail, congrArg Prod.fst hRun⟩
      exact (hThen a).marked (hIn.past hPast) hMarked
    · rename_i between hRun
      rwa [hRun] at hMarked

instance {f : α → β} [Stays r] : Stays (f <$> r) :=
  inferInstanceAs (Stays (r >>= fun a => pure (f a)))

instance [hFirst : Stays r] [hSecond : Stays s] : Stays (orElse r s) where
  past h := by
    rcases h.of_orElse with hTake | ⟨-, hTake⟩
    · exact hFirst.past hTake
    · exact hSecond.past hTake
  marked {text cursor trail} hIn hTrail := by
    have hMarked := hFirst.marked hIn hTrail
    rw [orElse]
    split
    · rename_i between hRun
      rw [hRun] at hMarked
      exact hSecond.marked hIn hMarked
    · exact hMarked

instance [Stays r] : Stays (Reader.optional r) := by unfold Reader.optional; infer_instance

/-- A construct is marked where it was tried. -/
instance (c : Construct) [hr : Stays r] : Stays (named c r) where
  past h := hr.past h.of_named
  marked {text cursor trail} hIn hTrail := by
    have hMarked := hr.marked hIn hTrail
    rw [named]
    split
    · rename_i between hRun
      rw [hRun] at hMarked
      exact isPlace_failed c _ hMarked hIn.isPlace
    · exact hMarked

instance stays_upToMany [Stays r] (limit : Nat) : Stays (upToMany r limit) := by
  induction limit with
  | zero => exact inferInstanceAs (Stays (pure []))
  | succ limit ih =>
      rw [upToMany]
      infer_instance

instance [Stays r] : Stays (many r) where
  past {cursor _ _} h := (stays_upToMany (r := r) (cursor.rest.length + 1)).past h
  marked {_ cursor _} := (stays_upToMany (r := r) (cursor.rest.length + 1)).marked

end Steps

/-! ## Text -/

instance (text : List Char) : Stays (literal text) := by
  refine stays_of_past (fun cursor trail => ?_) fun h => ⟨text, h.of_literal⟩
  rw [literal]
  split <;> rfl

instance (p : Char → Bool) : Stays (takeWhile p) :=
  stays_of_past (fun _ _ => rfl) fun h => ⟨_, h.of_takeWhile.1⟩

instance (p : Char → Bool) : Stays (takeWhile1 p) := by
  unfold takeWhile1
  refine @stays_bind _ _ _ _ inferInstance fun taken => ?_
  split <;> infer_instance

instance (p : Char → Bool) : Stays (satisfy p) := by
  refine stays_of_past (fun cursor trail => ?_) fun h => ⟨_, h.of_satisfy.1⟩
  rw [satisfy]
  split
  · split <;> rfl
  · rfl

instance (stop : List Char) : Stays (takeUpTo stop) := by
  refine stays_of_past (fun _ _ => rfl) fun {cursor taken after} h => ?_
  obtain ⟨trail, hTake⟩ := h
  cases hTake
  exact ⟨_, Cursor.past_advance (upTo_isPrefix stop cursor.rest)⟩

instance : Stays atEnd := by
  refine stays_of_past (fun cursor trail => ?_) fun {cursor u after} h => ?_
  · rw [atEnd]
    split <;> rfl
  · obtain ⟨-, rfl⟩ := h.of_atEnd
    exact ⟨[], .refl cursor⟩

/-! ## Rules -/

namespace Grammar

instance : Stays space := by unfold space; infer_instance
instance : Stays optionalSpace := by unfold optionalSpace; infer_instance
instance : Stays nameChars := by unfold nameChars; infer_instance
instance : Stays name := by unfold name; infer_instance
instance (stop : List Char) : Stays (body stop) := by unfold body; infer_instance
instance : Stays declaration := by unfold declaration; infer_instance
instance : Stays instruction := by unfold instruction; infer_instance
instance : Stays comment := by unfold comment; infer_instance
instance : Stays cdata := by unfold cdata; infer_instance
instance : Stays text := by unfold text; infer_instance
instance (quote : Char) : Stays (quotedBy quote) := by unfold quotedBy; infer_instance
instance : Stays quoted := by unfold quoted; infer_instance
instance : Stays attrib := by unfold attrib; infer_instance
instance : Stays closeTag := by unfold closeTag; infer_instance
instance : Stays aside := by unfold aside; infer_instance

end Grammar

instance (depth : Nat) [Stays (Grammar.elementWithin depth)] : Stays (pieceWithin depth) := by
  unfold pieceWithin; infer_instance

instance (depth : Nat) (start : Position) (name : String) (attributes : List WrittenAttribute)
    [Stays (Grammar.contentWithin depth)] : Stays (closingWithin depth start name attributes) := by
  unfold closingWithin; infer_instance

/-- Elements and their content stay in the text, however many pieces are allowed. -/
theorem stays_elementWithin_and_contentWithin (depth : Nat) :
    Stays (Grammar.elementWithin depth) ∧ Stays (Grammar.contentWithin depth) := by
  induction depth with
  | zero =>
      rw [Grammar.elementWithin, Grammar.contentWithin]
      exact ⟨inferInstance, inferInstance⟩
  | succ depth ih =>
      have hElement := ih.1
      have hContent := ih.2
      rw [elementWithin_succ, contentWithin_succ]
      exact ⟨inferInstance, inferInstance⟩

namespace Grammar

instance : Stays element where
  past {cursor _ _} h :=
    (stays_elementWithin_and_contentWithin (cursor.rest.length + 1)).1.past h
  marked {_ cursor _} :=
    (stays_elementWithin_and_contentWithin (cursor.rest.length + 1)).1.marked

instance : Stays document := by unfold document; infer_instance

end Grammar

/-! ## Reports -/

/-- The position that is told for the place behind a front of a source. -/
def reportPosition (front : List Char) : Position :=
  Position.start.advance (dropByteOrderMark front)

/-- Where a text leaves the grammar is a place in it. -/
theorem isPlace_of_readWritten {text : List Char} {position : Position} {fault : Fault}
    (h : readWritten text = .error (.malformed position fault)) : IsPlace text position := by
  have hMarked : IsPlace text (Grammar.document (.start text) .blank).2.furthest :=
    Stays.marked (Cursor.in_start text) ⟨[], List.nil_prefix, rfl⟩
  rw [readWritten] at h
  split at h
  · cases h
  · rename_i trail hRun
    cases h
    rwa [hRun] at hMarked

/-- What is wrong with a text that obeys the grammar is told at a place in it. -/
theorem isPlace_of_violation {source : String} {written : WrittenDocument} {position : Position}
    {fault : Fault} (hWritten : readWritten (dropByteOrderMark source.toList) = .ok written)
    (h : Document.read source = .error (.malformed position fault)) :
    IsPlace (dropByteOrderMark source.toList) position := by
  obtain ⟨verbatim, -, hBehind, v, hFirst, rfl, -⟩ := exists_violation_of_read hWritten h
  obtain ⟨back, hPlace⟩ :=
    VerbatimDocument.exists_of_mem_violations (List.mem_of_mem_head? hFirst)
  refine ⟨v.front, ⟨v.offset ++ (v.construct ++ back), ?_⟩, rfl⟩
  rw [← hBehind, hPlace, Violation.place, List.append_assoc]

theorem exists_front_of_isPlace {text : List Char} {position : Position}
    (h : IsPlace (dropByteOrderMark text) position) :
    ∃ front, front <+: text ∧ position = reportPosition front := by
  obtain ⟨front, hFront, rfl⟩ := h
  cases text with
  | nil => exact ⟨[], List.nil_prefix, by rw [List.prefix_nil.mp hFront]; rfl⟩
  | cons c rest =>
      rw [dropByteOrderMark] at hFront
      split at hFront
      · rename_i hMark
        refine ⟨c :: front, List.cons_prefix_cons.mpr ⟨rfl, hFront⟩, ?_⟩
        rw [reportPosition, dropByteOrderMark, if_pos hMark]
      · rename_i hMark
        refine ⟨front, hFront, ?_⟩
        cases front with
        | nil => rfl
        | cons first front =>
            obtain ⟨rfl, -⟩ := List.cons_prefix_cons.mp hFront
            rw [reportPosition, dropByteOrderMark, if_neg hMark]

/-- **Faults are told at places of the source**, and a byte-order mark is not counted. -/
theorem Document.exists_front_of_malformed {source : String} {position : Position} {fault : Fault}
    (h : Document.read source = .error (.malformed position fault)) :
    ∃ front, front <+: source.toList ∧ position = reportPosition front := by
  apply exists_front_of_isPlace
  cases hWritten : readWritten (dropByteOrderMark source.toList) with
  | ok written => exact isPlace_of_violation hWritten h
  | error e =>
      rw [Document.read, hWritten] at h
      obtain rfl : e = .malformed position fault := Except.error.inj h
      exact isPlace_of_readWritten hWritten

end LiveMarkup.Markup
