import LiveMarkup.Markup.Reader
import Mathlib.Data.List.Infix

/-!
# What readers take

A reader carries a trail along, which nothing but an explanation of failures
looks at. `Took` and `Refused` say what a reader does whatever the trail is: it
takes a value and moves from one cursor to another, or it takes nothing.

There is a rule for every way to put readers together and for every reader of
text, so that a grammar is followed through a text by applying rules.

## Main results

* `Took.bind`, `Took.orElse_left`, `Took.orElse_right`, `Took.named` — readers
  put together.
* `took_takeWhile`, `took_takeUpTo` — a class of characters is taken up to the
  first one outside of it, and a text up to the first stop.
* `takes_bind` — readers in a row take texts in a row.
* `took_upToMany_nil`, `Took.upToMany_cons` — pieces are taken until one is
  refused.
-/

namespace LiveMarkup.Markup.Reader

variable {α β : Type}

/-- The reader takes a value at one cursor and moves to the other. -/
def Took (r : Reader α) (cursor : Cursor) (a : α) (after : Cursor) : Prop :=
  ∀ trail, (r cursor trail).1 = some (a, after)

/-- The reader takes nothing at the cursor. -/
def Refused (r : Reader α) (cursor : Cursor) : Prop :=
  ∀ trail, (r cursor trail).1 = none

/-! ## Readers put together -/

theorem took_pure (a : α) (cursor : Cursor) : Took (pure a) cursor a cursor :=
  fun _ => rfl

theorem refused_fail (cursor : Cursor) : Refused (fail : Reader α) cursor :=
  fun _ => rfl

theorem took_position (cursor : Cursor) : Took position cursor cursor.position cursor :=
  fun _ => rfl

theorem Took.bind {r : Reader α} {f : α → Reader β} {cursor mid after : Cursor} {a : α} {b : β}
    (hFirst : Took r cursor a mid) (hRest : Took (f a) mid b after) :
    Took (r >>= f) cursor b after := by
  intro trail
  have hHere := hFirst trail
  show (Reader.bind r f cursor trail).1 = some (b, after)
  rw [Reader.bind]
  split
  · rename_i hRun
    rw [hRun, Option.some.injEq, Prod.mk.injEq] at hHere
    obtain ⟨rfl, rfl⟩ := hHere
    exact hRest _
  · rename_i hRun
    rw [hRun] at hHere
    cases hHere

theorem Refused.bind {r : Reader α} {cursor : Cursor} (h : Refused r cursor)
    (f : α → Reader β) : Refused (r >>= f) cursor := by
  intro trail
  have hHere := h trail
  show (Reader.bind r f cursor trail).1 = none
  rw [Reader.bind]
  split
  · rename_i hRun
    rw [hRun] at hHere
    cases hHere
  · rfl

theorem Took.bind_refused {r : Reader α} {f : α → Reader β} {cursor mid : Cursor} {a : α}
    (hFirst : Took r cursor a mid) (hRest : Refused (f a) mid) : Refused (r >>= f) cursor := by
  intro trail
  have hHere := hFirst trail
  show (Reader.bind r f cursor trail).1 = none
  rw [Reader.bind]
  split
  · rename_i hRun
    rw [hRun, Option.some.injEq, Prod.mk.injEq] at hHere
    obtain ⟨rfl, rfl⟩ := hHere
    exact hRest _
  · rfl

theorem Took.map {r : Reader α} {cursor after : Cursor} {a : α} (h : Took r cursor a after)
    (f : α → β) : Took (f <$> r) cursor (f a) after :=
  h.bind (took_pure (f a) after)

theorem Refused.map {r : Reader α} {cursor : Cursor} (h : Refused r cursor) (f : α → β) :
    Refused (f <$> r) cursor :=
  h.bind _

theorem Took.orElse_left {r : Reader α} {cursor after : Cursor} {a : α}
    (h : Took r cursor a after) (s : Reader α) : Took (orElse r s) cursor a after := by
  intro trail
  have hHere := h trail
  rw [orElse]
  split
  · rename_i hRun
    rw [hRun] at hHere
    cases hHere
  · exact hHere

theorem Took.orElse_right {r s : Reader α} {cursor after : Cursor} {a : α}
    (hFirst : Refused r cursor) (h : Took s cursor a after) : Took (orElse r s) cursor a after := by
  intro trail
  have hHere := hFirst trail
  rw [orElse]
  split
  · exact h _
  · rename_i hRun
    exact (hRun _ (Prod.ext hHere rfl)).elim

theorem Refused.orElse {r s : Reader α} {cursor : Cursor} (hFirst : Refused r cursor)
    (hSecond : Refused s cursor) : Refused (orElse r s) cursor := by
  intro trail
  have hHere := hFirst trail
  rw [Reader.orElse]
  split
  · exact hSecond _
  · exact hHere

theorem Took.named {r : Reader α} {cursor after : Cursor} {a : α} (h : Took r cursor a after)
    (c : Construct) : Took (named c r) cursor a after := by
  intro trail
  have hHere := h trail
  rw [Reader.named]
  split
  · rename_i hRun
    rw [hRun] at hHere
    cases hHere
  · exact hHere

theorem Refused.named {r : Reader α} {cursor : Cursor} (h : Refused r cursor) (c : Construct) :
    Refused (named c r) cursor := by
  intro trail
  have hHere := h trail
  rw [Reader.named]
  split
  · rfl
  · exact hHere

theorem Took.optional_some {r : Reader α} {cursor after : Cursor} {a : α}
    (h : Took r cursor a after) : Took (optional r) cursor (some a) after :=
  (h.map some).orElse_left _

theorem Took.optional_none {r : Reader α} {cursor : Cursor} (h : Refused r cursor) :
    Took (optional r) cursor none cursor :=
  .orElse_right (h.map some) (took_pure none cursor)

/-! ## Readers of text -/

theorem took_literal (text rest : List Char) (p : Text.Position) :
    Took (literal text) ⟨text ++ rest, p⟩ () ⟨rest, p.advance text⟩ := by
  intro trail
  rw [run_literal_append]

theorem refused_literal {text rest : List Char} (p : Text.Position) (h : ¬ text <+: rest) :
    Refused (literal text) ⟨rest, p⟩ := by
  intro trail
  have hNot : text.isPrefixOf rest = false := by
    rw [Bool.eq_false_iff]
    exact fun hPrefix => h (List.isPrefixOf_iff_prefix.mp hPrefix)
  simp only [literal, hNot, Bool.false_eq_true, if_false]

/-- A text does not go on with a character of the class. -/
def EndsHere (p : Char → Bool) (rest : List Char) : Prop :=
  ∀ c ∈ rest.head?, p c = false

theorem endsHere_nil {p : Char → Bool} : EndsHere p [] :=
  fun _ hMem => nomatch hMem

theorem endsHere_cons {p : Char → Bool} {c : Char} (h : p c = false) (rest : List Char) :
    EndsHere p (c :: rest) := by
  intro other hMem
  rw [List.head?_cons, Option.mem_some_iff] at hMem
  exact hMem ▸ h

theorem endsHere_append {p : Char → Bool} {front back : List Char}
    (hFront : ∀ c ∈ front, p c = false) (hBack : EndsHere p back) : EndsHere p (front ++ back) := by
  cases front with
  | nil => exact hBack
  | cons c front => exact endsHere_cons (hFront c List.mem_cons_self) _

theorem takeWhile_append {p : Char → Bool} {taken rest : List Char} (hTaken : ∀ c ∈ taken, p c = true)
    (hRest : EndsHere p rest) : (taken ++ rest).takeWhile p = taken := by
  rw [List.takeWhile_append_of_pos hTaken]
  cases rest with
  | nil => simp
  | cons c rest =>
      have hStop : p c = false := hRest c rfl
      rw [List.takeWhile_cons_of_neg (by simp [hStop]), List.append_nil]

theorem dropWhile_append {p : Char → Bool} {dropped rest : List Char}
    (hDropped : ∀ c ∈ dropped, p c = true) (hRest : EndsHere p rest) :
    (dropped ++ rest).dropWhile p = rest := by
  rw [List.dropWhile_append_of_pos hDropped]
  cases rest with
  | nil => rfl
  | cons c rest =>
      have hStop : p c = false := hRest c rfl
      rw [List.dropWhile_cons_of_neg (by simp [hStop])]

/-- **A class of characters is taken up to the first one outside of it.** -/
theorem took_takeWhile {p : Char → Bool} {taken rest : List Char} (q : Text.Position)
    (hTaken : ∀ c ∈ taken, p c = true) (hRest : EndsHere p rest) :
    Took (takeWhile p) ⟨taken ++ rest, q⟩ taken ⟨rest, q.advance taken⟩ := by
  intro trail
  simp only [takeWhile, takeWhile_append hTaken hRest, Cursor.advance, List.drop_left,
    List.take_left]

theorem took_takeWhile1 {p : Char → Bool} {taken rest : List Char} (q : Text.Position)
    (hNe : taken ≠ []) (hTaken : ∀ c ∈ taken, p c = true) (hRest : EndsHere p rest) :
    Took (takeWhile1 p) ⟨taken ++ rest, q⟩ taken ⟨rest, q.advance taken⟩ := by
  refine (took_takeWhile q hTaken hRest).bind ?_
  rw [if_neg (by simpa using hNe)]
  exact took_pure _ _

theorem refused_takeWhile1 {p : Char → Bool} {rest : List Char} (q : Text.Position)
    (hRest : EndsHere p rest) : Refused (takeWhile1 p) ⟨rest, q⟩ := by
  have hNothing : Took (takeWhile p) ⟨rest, q⟩ [] ⟨rest, q⟩ :=
    took_takeWhile q (fun c hMem => absurd hMem List.not_mem_nil) hRest
  exact hNothing.bind_refused (refused_fail _)

theorem took_satisfy {p : Char → Bool} {c : Char} (rest : List Char) (q : Text.Position)
    (h : p c = true) : Took (satisfy p) ⟨c :: rest, q⟩ c ⟨rest, q.advance [c]⟩ := by
  intro trail
  simp only [satisfy, h, if_true]
  rfl

theorem refused_satisfy {p : Char → Bool} {rest : List Char} (q : Text.Position)
    (hRest : EndsHere p rest) : Refused (satisfy p) ⟨rest, q⟩ := by
  intro trail
  cases rest with
  | nil => rfl
  | cons c rest =>
      have hNot : p c = false := hRest c rfl
      simp only [satisfy, hNot, Bool.false_eq_true, if_false]

theorem took_atEnd (q : Text.Position) : Took atEnd ⟨[], q⟩ () ⟨[], q⟩ :=
  fun _ => rfl

/-! ## Texts in a row -/

/-- The reader takes exactly the text that stands in front of the rest. -/
abbrev Takes (r : Reader α) (p : Text.Position) (text rest : List Char) (a : α) : Prop :=
  Took r ⟨text ++ rest, p⟩ a ⟨rest, p.advance text⟩

/-- **Readers in a row take texts in a row.** -/
theorem takes_bind {r : Reader α} {f : α → Reader β} {p : Text.Position}
    {front back rest : List Char} {a : α} {b : β} (hFirst : Takes r p front (back ++ rest) a)
    (hRest : Takes (f a) (p.advance front) back rest b) :
    Takes (r >>= f) p (front ++ back) rest b := by
  have hBoth := Took.bind hFirst hRest
  rw [Takes, List.append_assoc, Text.Position.advance_append]
  exact hBoth

theorem takes_position {f : Text.Position → Reader β} {p : Text.Position}
    {text rest : List Char} {b : β} (h : Takes (f p) p text rest b) :
    Takes (position >>= f) p text rest b :=
  (took_position _).bind h

theorem takes_return {r : Reader α} {p : Text.Position} {text rest : List Char} {a : α}
    (h : Takes r p text rest a) (f : α → β) :
    Takes (r >>= fun a => pure (f a)) p text rest (f a) :=
  Took.bind h (took_pure (f a) _)

/-! ## Stops -/

/-- Where the first character of a stop does not occur no stop begins. -/
theorem infix_of_append {c : Char} {stop front back : List Char} (hFront : c ∉ front)
    (h : c :: stop <:+: front ++ back) : c :: stop <:+: back := by
  induction front with
  | nil => exact h
  | cons first front ih =>
      rw [List.mem_cons, not_or] at hFront
      rw [List.cons_append, List.infix_cons_iff] at h
      rcases h with hPrefix | hInfix
      · exact absurd (List.cons_prefix_cons.mp hPrefix).1 hFront.1
      · exact ih hFront.2 hInfix

/-- No proper ending of the text is one of its beginnings, so that it can begin
at one place only of a text that it ends. -/
def Unbordered (stop : List Char) : Prop :=
  ∀ n < stop.length, 0 < n → ¬ stop.drop n <+: stop

instance (stop : List Char) : Decidable (Unbordered stop) :=
  inferInstanceAs (Decidable (∀ n < stop.length, 0 < n → ¬ stop.drop n <+: stop))

theorem upTo_eq_of_not_prefix {stop rest : List Char} {c : Char} (h : ¬ stop <+: c :: rest) :
    upTo stop (c :: rest) = c :: upTo stop rest := by
  have hNot : stop.isPrefixOf (c :: rest) = false := by
    rw [Bool.eq_false_iff]
    exact fun hPrefix => h (List.isPrefixOf_iff_prefix.mp hPrefix)
  rw [upTo, hNot]
  rfl

/-- A text without the stop is what stands in front of the first one behind it. -/
theorem upTo_append {stop body rest : List Char} (hStop : stop ≠ []) (hBorder : Unbordered stop)
    (hBody : ¬ stop <:+: body) : upTo stop (body ++ (stop ++ rest)) = body := by
  induction body with
  | nil =>
      obtain ⟨c, stop, rfl⟩ := List.exists_cons_of_ne_nil hStop
      have hHere : (c :: stop).isPrefixOf (c :: stop ++ rest) = true :=
        List.isPrefixOf_iff_prefix.mpr (List.prefix_append _ _)
      rw [List.nil_append, List.cons_append, upTo, ← List.cons_append, hHere]
      rfl
  | cons c body ih =>
      have hBelow : ¬ stop <:+: body := fun h => hBody (List.infix_cons h)
      have hNot : ¬ stop <+: c :: (body ++ (stop ++ rest)) := by
        intro hPrefix
        rw [← List.cons_append] at hPrefix
        rcases Nat.lt_or_ge (c :: body).length stop.length with hShort | hLong
        · -- The stop would begin in the body and end behind it.
          have hFront : c :: body <+: stop :=
            List.prefix_of_prefix_length_le (List.prefix_append _ _) hPrefix (by omega)
          obtain ⟨back, hBack⟩ := hFront
          refine hBorder (c :: body).length hShort (Nat.succ_pos _) ?_
          rw [← hBack, List.drop_left]
          rw [← hBack, List.prefix_append_right_inj, hBack] at hPrefix
          refine List.prefix_of_prefix_length_le hPrefix ?_ ?_
          · rw [hBack]
            exact List.prefix_append _ _
          · have hLength : (c :: body ++ back).length = (c :: body).length + back.length :=
              List.length_append
            omega
        · exact hBody (List.prefix_of_prefix_length_le hPrefix (List.prefix_append _ _)
            hLong).isInfix
      rw [List.cons_append, upTo_eq_of_not_prefix hNot, ih hBelow]

/-- **A text is taken up to the first stop.** -/
theorem took_takeUpTo {stop body rest : List Char} (q : Text.Position) (hStop : stop ≠ [])
    (hBorder : Unbordered stop) (hBody : ¬ stop <:+: body) :
    Took (takeUpTo stop) ⟨body ++ (stop ++ rest), q⟩ body ⟨stop ++ rest, q.advance body⟩ := by
  intro trail
  simp only [takeUpTo, upTo_append hStop hBorder hBody, Cursor.advance, List.drop_left,
    List.take_left]

/-! ## Pieces -/

theorem took_upToMany_nil {r : Reader α} {cursor : Cursor} (h : Refused r cursor) (limit : Nat) :
    Took (upToMany r limit) cursor [] cursor := by
  cases limit with
  | zero => exact took_pure [] cursor
  | succ limit => exact .orElse_right (h.bind _) (took_pure [] cursor)

theorem Took.upToMany_cons {r : Reader α} {cursor mid after : Cursor} {a : α} {rest : List α}
    {limit : Nat} (hFirst : Took r cursor a mid) (hRest : Took (upToMany r limit) mid rest after) :
    Took (upToMany r (limit + 1)) cursor (a :: rest) after :=
  (hFirst.bind (hRest.bind (took_pure (a :: rest) after))).orElse_left _

/-- The limit of `many` is no less than the number of characters. -/
theorem Took.many {r : Reader α} {cursor after : Cursor} {pieces : List α}
    (h : Took (upToMany r (cursor.rest.length + 1)) cursor pieces after) :
    Took (many r) cursor pieces after :=
  h

end LiveMarkup.Markup.Reader
