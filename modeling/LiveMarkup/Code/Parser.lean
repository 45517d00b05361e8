import LiveMarkup.Code.Token

/-!
# Reading code

A parser reads a piece of code from the front of a list of tokens and leaves the tokens behind it, or
fails. Little is kept of what it read: it is mostly asked whether it was there. What comes next is told
by looking at the tokens (`At`), so that no parser has to be tried and taken back.
-/

namespace LiveMarkup.Code

/-- Reads a piece of code from the front of a list of tokens. -/
abbrev Parser := StateT (List Token) Option

/-- Tells by the tokens that come next what they are. -/
abbrev Look := List Token → Bool

/-! ## Looking ahead -/

namespace At

/-- Whether characters of punctuation come next without anything between them. -/
def punctuation : List Char → Look
  | [], _ => true
  | [c], .punct c' _ :: _ => c' = c
  | c :: cs, .punct c' true :: rest => c' = c && punctuation cs rest
  | _, _ => false

/-- Whether a symbol comes next, whatever follows it. -/
def symbol (s : String) : Look :=
  punctuation s.toList

/-- Whether a word comes next, as a keyword. -/
def word (text : String) : Look
  | .word text' :: _ => text' = text
  | _ => false

/-- Whether one of the words comes next, as a keyword. -/
def someWord (texts : List String) : Look :=
  fun ts => texts.any (word · ts)

/-- Whether a word comes next, keyword or not. -/
def anyWord : Look
  | .word _ :: _ => true
  | .rawWord _ :: _ => true
  | _ => false

/-- Whether an identifier comes next. -/
def identifier : Look
  | token :: _ => token.identifier?.isSome
  | [] => false

/-- Whether a lifetime comes next. -/
def lifetime : Look
  | .lifetime _ :: _ => true
  | _ => false

/-- Whether a literal comes next; a truth value is one, and a number may have a minus sign. -/
def literal : Look
  | .literal _ :: _ => true
  | .word text :: _ => text = "true" || text = "false"
  | .punct '-' _ :: .literal (.whole _) :: _ => true
  | .punct '-' _ :: .literal (.fractional _) :: _ => true
  | _ => false

/-- Whether a text in quotes comes next. -/
def text : Look
  | .literal .text :: _ => true
  | _ => false

/-- Whether a group between brackets of a kind comes next. -/
def group (b : Bracket) : Look
  | .group b' _ :: _ => b' = b
  | _ => false

/-- Whether nothing comes next. -/
def theEnd : Look := List.isEmpty

/-- Whether one of the given things comes next. -/
def someOf (looks : List Look) : Look :=
  fun ts => looks.any (· ts)

end At

/-! ## Reading tokens -/

namespace Parser

/-- Reads the first token, if it is one that is asked for. -/
def token {α : Type} (read? : Token → Option α) : Parser α := fun ts =>
  match ts with
  | token :: rest => (read? token).map (·, rest)
  | [] => none

/-- Reads a symbol. -/
def symbol (s : String) : Parser Unit := fun ts =>
  if At.symbol s ts then some ((), ts.drop s.length) else none

/-- Reads a symbol if it comes next, and tells whether it does. -/
def takes (s : String) : Parser Bool := fun ts =>
  if At.symbol s ts then some (true, ts.drop s.length) else some (false, ts)

/-- Reads a keyword. -/
def word (text : String) : Parser Unit :=
  token fun
    | .word text' => if text' = text then some () else none
    | _ => none

/-- Reads a keyword if it comes next, and tells whether it does. -/
def takesWord (text : String) : Parser Bool := fun ts =>
  if At.word text ts then some (true, ts.drop 1) else some (false, ts)

/-- Reads a word, keyword or not, and gives it as it is written. -/
def anyWord : Parser String :=
  token fun
    | .word text => some text
    | .rawWord text => some ("r#" ++ text)
    | _ => none

/-- Reads an identifier. -/
def identifier : Parser String :=
  token Token.identifier?

/-- Reads an identifier, or one of the given keywords in its place. -/
def identifierOr (texts : List String) : Parser Unit := do
  if At.someWord texts (← get) then discard anyWord else discard identifier

/-- Reads a lifetime. -/
def lifetime : Parser Unit :=
  token fun
    | .lifetime _ => some ()
    | _ => none

/-- Reads a lifetime if it comes next. -/
def optionalLifetime : Parser Unit := do
  if At.lifetime (← get) then lifetime

/-- Reads a literal. -/
def literal : Parser Unit := fun ts =>
  if At.literal ts then some ((), ts.drop (if At.symbol "-" ts then 2 else 1)) else none

/-- Reads a text in quotes if it comes next. -/
def optionalText : Parser Unit := fun ts =>
  some ((), if At.text ts then ts.drop 1 else ts)

/-- Reads what stands between brackets of a kind, which must be all of it. -/
def inside {α : Type} (b : Bracket) (content : Parser α) : Parser α := fun ts =>
  match ts with
  | .group b' inner :: rest =>
    if b' = b then
      match content inner with
      | some (a, []) => some (a, rest)
      | _ => none
    else none
  | _ => none

/-- Reads anything between brackets, and tells of which kind they are. -/
def anyGroup : Parser Bracket :=
  token fun
    | .group b _ => some b
    | _ => none

/-! ## Repetition -/

/-- Goes on from `a` step by step until a step says that it was the last; at most `limit` steps. -/
def iterateWithin {α : Type} (step : α → Parser (Option α)) : Nat → α → Parser α
  | 0, _ => failure
  | limit + 1, a => do
    match ← step a with
    | none => return a
    | some a => iterateWithin step limit a

/-- Goes on from `a` step by step until a step says that it was the last. Every other step reads
something, so there are no more of them than tokens. -/
def iterate {α : Type} (step : α → Parser (Option α)) (a : α) : Parser α := fun ts =>
  iterateWithin step (ts.length + 1) a ts

/-- Reads pieces as long as `more` holds. -/
def repeatWhile (more : Look) (piece : Parser Unit) : Parser Unit :=
  iterate (fun _ => do
    if more (← get) then
      piece
      return some ()
    else return none) ()

/-- Reads pieces with a symbol between them, and perhaps one behind the last. No piece begins where
`stop` holds, and the pieces end where no symbol comes. -/
def punctuated (separator : String) (stop : Look) (piece : Parser Unit) : Parser Unit :=
  iterate (fun _ => do
    if stop (← get) then return none
    piece
    if ← takes separator then return some () else return none) ()

/-- Reads pieces with commas between them up to the end. -/
def list (piece : Parser Unit) : Parser Unit :=
  punctuated "," At.theEnd piece

end Parser

end LiveMarkup.Code
