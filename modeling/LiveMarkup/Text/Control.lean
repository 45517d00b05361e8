/-!
# Control sequences

A text may hold control characters, and sequences that begin with one, which tell a terminal to do
something rather than to show something. `plain` leaves them out and keeps what is shown: every other
character, and the controls that lay a text out. How a sequence goes on depends on its first characters:

* behind an escape character stand marks and then one character that ends the sequence, unless that
  character begins a sequence of another kind;
* a control sequence holds numbers and marks and ends with a letter or a character of that range;
* a command ends with a bell;
* a string ends with the byte `9C`, which may be part of another character;
* for a device, numbers and marks stand in front of a string.

An escape character begins a new sequence anywhere, and two controls end every sequence.

## Main results

* `plain_of_shown` — a text in which everything is shown is left as it is.
-/

namespace LiveMarkup.Text

/-- Where in a sequence a text is. -/
inductive ControlState where
  /-- In no sequence. -/
  | ground
  /-- Behind an escape character. -/
  | escape
  /-- Behind an escape character and marks. -/
  | marks
  /-- In a control sequence. -/
  | sequence
  | command
  | string
  /-- At the beginning of a sequence for a device. -/
  | device
  /-- Among the numbers of a sequence for a device. -/
  | deviceNumbers
  /-- Among the marks of a sequence for a device. -/
  | deviceMarks
  deriving DecidableEq, Repr

/-- Whether `c` is a control that lays a text out. -/
def isLayout (c : Char) : Bool :=
  c == '\t' || c == '\n' || c == '\x0c' || c == '\r'

/-- Whether `c` is shown, or lays out what is shown, if it stands in no sequence. -/
def isShown (c : Char) : Bool :=
  isLayout c || (' ' ≤ c && c != '\x7f')

namespace ControlState

/-- Whether controls have their effect within a sequence. -/
def obeys : ControlState → Bool
  | .ground | .escape | .marks | .sequence => true
  | _ => false

/-- The state behind the first character of a sequence. -/
def behindEscape (c : Char) : ControlState :=
  if ' ' ≤ c && c ≤ '/' then .marks
  else if c = 'P' then .device
  else if c = '[' then .sequence
  else if c = ']' then .command
  else if c = 'X' || c = '^' || c = '_' then .string
  else if '0' ≤ c && c ≤ '~' then .ground
  else .escape

/-- The state behind a character that is not shown. -/
def next (state : ControlState) (c : Char) : ControlState :=
  if c = '\x1b' then .escape
  else if c = '\x18' || c = '\x1a' then .ground
  else match state with
    | .ground => .ground
    | .escape => behindEscape c
    | .marks => if '0' ≤ c && c ≤ '~' then .ground else .marks
    | .sequence => if '@' ≤ c && c ≤ '~' then .ground else .sequence
    | .command => if c = '\x07' then .ground else .command
    | .string => if 0x9c ∈ String.utf8EncodeChar c then .ground else .string
    | .device =>
      if ' ' ≤ c && c ≤ '/' then .deviceMarks
      else if '0' ≤ c && c ≤ '?' then .deviceNumbers
      else if '@' ≤ c && c ≤ '~' then .string
      else .device
    | .deviceNumbers =>
      if ' ' ≤ c && c ≤ '/' then .deviceMarks
      else if '<' ≤ c && c ≤ '~' then .string
      else .deviceNumbers
    | .deviceMarks => if '0' ≤ c && c ≤ '~' then .string else .deviceMarks

end ControlState

/-- What is shown of a text, from a state on. Layout within a sequence is shown, and so is what follows
it up to the next control; `showing` tells whether the text is there. -/
def plainFrom (state : ControlState) (showing : Bool) : List Char → List Char
  | [] => []
  | c :: rest =>
    if isShown c && (showing || state = .ground || (state.obeys && isLayout c)) then
      c :: plainFrom (if c < '\x80' then state else .ground) true rest
    else plainFrom (state.next c) false rest

/-- What is shown of a text. -/
def plain (s : String) : String :=
  String.ofList (plainFrom .ground false s.toList)

/-- Outside of sequences a text in which everything is shown keeps all of its characters. -/
theorem plainFrom_of_shown {s : List Char} (hShown : ∀ c ∈ s, isShown c = true) (showing : Bool) :
    plainFrom .ground showing s = s := by
  induction s generalizing showing with
  | nil => rfl
  | cons c rest ih =>
    have hHead : isShown c = true := hShown c (by simp)
    have hRest := ih (fun d hd => hShown d (by simp [hd])) true
    simp [plainFrom, hHead, hRest]

/-- **What is shown stays**: a text without a control other than those for layout is left as it is. -/
theorem plain_of_shown {s : String} (hShown : ∀ c ∈ s.toList, isShown c = true) : plain s = s := by
  simp [plain, plainFrom_of_shown hShown]

end LiveMarkup.Text
