import LiveMarkup.Markup.Construct

/-!
# Readers

A reader takes a piece from the front of a text, or fails; either way it may leave marks on the trail.
Readers never look at the trail, so what they take does not depend on it. Choice is ordered: the
second alternative is tried only where the first one fails, and at the same place.

## Main results

* `run_literal_append` — a literal is read where it stands.
* `takeWhile_run` — `takeWhile` takes the longest beginning of its class.
-/

namespace LiveMarkup.Markup

open Text (Position)

/-- A place in a text together with the text from there on. -/
structure Cursor where
  rest : List Char
  position : Position
  deriving DecidableEq, Repr

namespace Cursor

/-- The cursor in front of a text. -/
def start (text : List Char) : Cursor := ⟨text, .start⟩

/-- The cursor behind the first `n` characters. -/
def advance (cursor : Cursor) (n : Nat) : Cursor :=
  ⟨cursor.rest.drop n, cursor.position.advance (cursor.rest.take n)⟩

end Cursor

/-- Takes a value from the text at a cursor and moves behind it, or fails. -/
def Reader (α : Type) : Type :=
  Cursor → Trail → Option (α × Cursor) × Trail

namespace Reader

variable {α β : Type}

/-- Takes nothing. -/
protected def pure (a : α) : Reader α :=
  fun cursor trail => (some (a, cursor), trail)

/-- Takes one piece after the other; fails where either fails. -/
protected def bind (r : Reader α) (f : α → Reader β) : Reader β :=
  fun cursor trail =>
    match r cursor trail with
    | (some (a, cursor), trail) => f a cursor trail
    | (none, trail) => (none, trail)

instance : Monad Reader where
  pure := Reader.pure
  bind := Reader.bind

/-- Takes nothing and fails. -/
def fail : Reader α :=
  fun _ trail => (none, trail)

/-- The first alternative, and where it fails the second. -/
def orElse (r s : Reader α) : Reader α :=
  fun cursor trail =>
    match r cursor trail with
    | (none, trail) => s cursor trail
    | success => success

/-- The piece if it is there. -/
def optional (r : Reader α) : Reader (Option α) :=
  orElse (some <$> r) (pure none)

/-- Where the reader stands. -/
def position : Reader Position :=
  fun cursor trail => (some (cursor.position, cursor), trail)

/-- Takes the given text. -/
def literal (text : List Char) : Reader Unit :=
  fun cursor trail =>
    if text.isPrefixOf cursor.rest then (some ((), cursor.advance text.length), trail)
    else (none, trail)

/-- Takes the longest beginning of characters in `p`, which may be empty. -/
def takeWhile (p : Char → Bool) : Reader (List Char) :=
  fun cursor trail =>
    let taken := cursor.rest.takeWhile p
    (some (taken, cursor.advance taken.length), trail)

/-- Takes the longest beginning of characters in `p`, which must not be empty. -/
def takeWhile1 (p : Char → Bool) : Reader (List Char) := do
  let taken ← takeWhile p
  if taken.isEmpty then fail else pure taken

/-- Takes one character in `p`. -/
def satisfy (p : Char → Bool) : Reader Char :=
  fun cursor trail =>
    match cursor.rest with
    | c :: _ => if p c then (some (c, cursor.advance 1), trail) else (none, trail)
    | [] => (none, trail)

/-- The beginning of `text` in front of the first place where `stop` stands, or all of it. -/
def upTo (stop : List Char) : List Char → List Char
  | [] => []
  | c :: rest => if stop.isPrefixOf (c :: rest) then [] else c :: upTo stop rest

/-- Takes everything in front of the first place where `stop` stands, or everything. -/
def takeUpTo (stop : List Char) : Reader (List Char) :=
  fun cursor trail =>
    let taken := upTo stop cursor.rest
    (some (taken, cursor.advance taken.length), trail)

/-- Takes nothing, at the end of the text only. -/
def atEnd : Reader Unit :=
  fun cursor trail => if cursor.rest.isEmpty then (some ((), cursor), trail) else (none, trail)

/-- Takes pieces until one is not there, at most `limit` of them. -/
def upToMany (r : Reader α) : Nat → Reader (List α)
  | 0 => pure []
  | limit + 1 => orElse
      (do
        let a ← r
        let rest ← upToMany r limit
        pure (a :: rest))
      (pure [])

/-- Takes pieces until one is not there. Pieces are never empty, so there are no more of them than
characters; one more is tried, as its failure may leave marks on the trail. -/
def many (r : Reader α) : Reader (List α) :=
  fun cursor trail => upToMany r (cursor.rest.length + 1) cursor trail

/-- Reads a construct: its failure is put on the trail. -/
def named (c : Construct) (r : Reader α) : Reader α :=
  fun cursor trail =>
    match r cursor trail with
    | (none, after) => (none, after.failed c cursor.position (trail.countAt cursor.position))
    | success => success

/-! ## What the readers of text take -/

/-- A literal is read where it stands. -/
theorem run_literal_append (text rest : List Char) (p : Position) (trail : Trail) :
    literal text ⟨text ++ rest, p⟩ trail = (some ((), ⟨rest, p.advance text⟩), trail) := by
  simp [literal, Cursor.advance]

/-- `takeWhile` takes the longest beginning of its class. -/
theorem takeWhile_run (p : Char → Bool) (cursor : Cursor) (trail : Trail) :
    takeWhile p cursor trail =
      (some (cursor.rest.takeWhile p,
        ⟨cursor.rest.dropWhile p, cursor.position.advance (cursor.rest.takeWhile p)⟩), trail) := by
  have hsplit : cursor.rest.takeWhile p ++ cursor.rest.dropWhile p = cursor.rest :=
    List.takeWhile_append_dropWhile
  have hdrop : (cursor.rest.takeWhile p ++ cursor.rest.dropWhile p).drop
      (cursor.rest.takeWhile p).length = cursor.rest.dropWhile p := List.drop_left
  have htake : (cursor.rest.takeWhile p ++ cursor.rest.dropWhile p).take
      (cursor.rest.takeWhile p).length = cursor.rest.takeWhile p := List.take_left
  rw [hsplit] at hdrop htake
  simp only [takeWhile, Cursor.advance, hdrop, htake]

end Reader

end LiveMarkup.Markup
