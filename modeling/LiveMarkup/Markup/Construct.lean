import LiveMarkup.Text.Position

/-!
# What could have come next

A reader that fails tells what it would have accepted at the furthest place it got to. It does so in
terms of the named constructs of the grammar: the trail keeps the furthest position at which a
construct failed to begin, and the constructs that were tried there.

A construct that fails behind its own beginning leaves what was expected there on the trail. One that
fails at its beginning stands on the trail itself, in place of the constructs it tried there, unless
it tried exactly one, which says more.
-/

namespace LiveMarkup.Markup

open Text (Position)

/-- The constructs by whose names a failure is explained. -/
inductive Construct where
  | endOfInput
  | document
  | instruction
  | instructionTarget
  | comment
  | element
  | attrib
  | closeTag
  | cdata
  | text
  | name
  deriving DecidableEq, Repr

namespace Construct

/-- All constructs, in the order in which an explanation lists them. -/
def all : List Construct :=
  [endOfInput, document, instruction, instructionTarget, comment, element, attrib, closeTag, cdata,
    text, name]

theorem mem_all (c : Construct) : c ∈ all := by
  cases c <;> decide

/-- The name of a construct in an explanation. -/
def label : Construct → String
  | endOfInput => "EOI"
  | document => "document"
  | instruction => "pi"
  | instructionTarget => "pi_target"
  | comment => "comment"
  | element => "element"
  | attrib => "attribute"
  | closeTag => "close_tag"
  | cdata => "cdata"
  | text => "text"
  | name => "name"

end Construct

/-- A list of labels as a phrase: with a comma behind each but the last when there are three or more,
and the last joined by a word. -/
def enumerate : List String → String
  | [] => "unknown parsing error"
  | [a] => "expected " ++ a
  | [a, b] => "expected " ++ a ++ " or " ++ b
  | labels =>
    "expected " ++ String.join (labels.dropLast.map (· ++ ", ")) ++ "or " ++ labels.getLast?.getD ""

/-- Constructs as an explanation: each once, in the order of `Construct.all`. -/
def explain (expected : List Construct) : String :=
  enumerate ((Construct.all.filter (· ∈ expected)).map Construct.label)

/-- The furthest position at which a construct failed to begin, and what was tried there. -/
structure Trail where
  furthest : Position
  expected : List Construct
  deriving DecidableEq, Repr

namespace Trail

/-- Nothing has failed yet. -/
def blank : Trail := ⟨.start, []⟩

/-- The number of constructs on the trail at a position. -/
def countAt (trail : Trail) (p : Position) : Nat :=
  if p = trail.furthest then trail.expected.length else 0

/-- The trail after the failure of a construct that began at `p`, with `before` constructs on the
trail at that position when it was tried. -/
def failed (trail : Trail) (c : Construct) (p : Position) (before : Nat) : Trail :=
  if trail.countAt p = before + 1 then trail
  else if p = trail.furthest then ⟨p, trail.expected.take before ++ [c]⟩
  else if trail.furthest.offset < p.offset then ⟨p, [c]⟩
  else trail

end Trail

end LiveMarkup.Markup
