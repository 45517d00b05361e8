import LiveMarkup.Code.Literal
import LiveMarkup.Text.Blank

/-!
# Tokens of generated code

Markup carries pieces of code: the name of the type that a view belongs to, and the names that loops
bind. They are told apart token by token, in the lexical grammar of the language that the generated
code is written in. What stands between two brackets is one token, a group. Comments separate tokens
like white space does, but one that documents something stands for an attribute, whose tokens it is
replaced by.
-/

namespace LiveMarkup.Code

open Text (isBlank)

/-- The three kinds of brackets. -/
inductive Bracket where
  | round
  | square
  | curly
  deriving DecidableEq, Repr

/-- A token. -/
inductive Token where
  /-- A word, which may be a keyword. -/
  | word (text : String)
  /-- A word with the mark that takes its meaning as a keyword away; the mark is left out. -/
  | rawWord (text : String)
  | lifetime (name : String)
  | literal (literal : Literal)
  /-- A character of punctuation, and whether another one follows it at once. -/
  | punct (char : Char) (joined : Bool)
  /-- What stands between two brackets of a kind. -/
  | group (bracket : Bracket) (content : List Token)

/-- What a text is cut into: tokens that are no groups, and brackets. -/
inductive Lexeme where
  | token (token : Token)
  | opening (bracket : Bracket)
  | closing (bracket : Bracket)

/-! ## What separates tokens -/

/-- White space between tokens: the marks for the direction of writing count as such. -/
def isSeparator (c : Char) : Bool :=
  isBlank c || c == '\u200e' || c == '\u200f'

/-- The text behind a block comment that has been opened `depth` times. Comments nest. -/
def behindBlock : Nat → List Char → Option (List Char)
  | depth, '/' :: '*' :: rest => behindBlock (depth + 1) rest
  | 0, _ => none
  | 1, '*' :: '/' :: rest => some rest
  | depth + 2, '*' :: '/' :: rest => behindBlock (depth + 1) rest
  | depth, _ :: rest => behindBlock depth rest
  | _, [] => none

/-- Whether a text that begins with a comment documents something with it. -/
def isDocumentation : List Char → Bool
  | '/' :: '/' :: '/' :: '/' :: _ => false
  | '/' :: '/' :: '/' :: _ => true
  | '/' :: '/' :: '!' :: _ => true
  | '/' :: '*' :: '*' :: '/' :: _ => false
  | '/' :: '*' :: '*' :: '*' :: _ => false
  | '/' :: '*' :: '*' :: _ => true
  | '/' :: '*' :: '!' :: _ => true
  | _ => false

/-- The text behind the comments and the white space that it begins with, at most `limit` of them. A
comment that documents something is left where it is, and so is one that is not ended. -/
def skipSeparators : Nat → List Char → List Char
  | 0, s => s
  | limit + 1, s =>
    if isDocumentation s then s
    else match s with
      | '/' :: '/' :: rest => skipSeparators limit (rest.dropWhile (· != '\n'))
      | '/' :: '*' :: rest =>
        match behindBlock 1 rest with
        | some behind => skipSeparators limit behind
        | none => s
      | c :: rest => if isSeparator c then skipSeparators limit rest else s
      | [] => []

/-! ## Documentation -/

/-- Whether a carriage return stands anywhere but in front of a line feed. -/
def hasBareReturn : List Char → Bool
  | '\r' :: '\n' :: rest => hasBareReturn rest
  | '\r' :: _ => true
  | _ :: rest => hasBareReturn rest
  | [] => false

/-- The text behind a comment that documents something, which ends where its line does or its block. -/
def behindDocumentation : List Char → Option (List Char)
  | '/' :: '*' :: rest =>
    (behindBlock 1 rest).filter fun behind => !hasBareReturn (rest.take (rest.length - behind.length))
  | s =>
    let behind := s.dropWhile (· != '\n')
    if hasBareReturn (s.takeWhile (· != '\n') ++ behind.take 1) then none else some behind

/-- The attribute that a comment stands for: one of what follows it, or with an exclamation mark one
of what it stands in. -/
def documentationTokens (s : List Char) : List Token :=
  let within : List Token := if s[2]? = some '!' then [.punct '!' false] else []
  .punct '#' false :: within
    ++ [.group .square [.word "doc", .punct '=' false, .literal .text]]

/-! ## Tokens -/

/-- Whether `c` is punctuation. -/
def isPunct (c : Char) : Bool :=
  c ∈ "~!@#$%^&*-=+|;:,<.>/?'".toList

/-- Whether the text goes on with punctuation; a comment is none. -/
def beginsPunct : List Char → Bool
  | '/' :: '/' :: _ => false
  | '/' :: '*' :: _ => false
  | c :: _ => isPunct c
  | [] => false

/-- Beginnings of literals in quotes that no word has. -/
def quotedMarks : List String :=
  ["r\"", "r#\"", "r##", "b\"", "b'", "br\"", "br#", "c\"", "cr\"", "cr#"]

/-- A word, raw or not, and the text behind it. -/
def wordToken? (s : List Char) : Option (Token × List Char) :=
  if quotedMarks.any fun mark => mark.toList.isPrefixOf s then none
  else if ['r', '#'].isPrefixOf s then
    (rawWord? s).map fun (word, behind) => (.rawWord (String.ofList word), behind)
  else
    (word? s).map fun (word, behind) => (.word (String.ofList word), behind)

/-- The text behind a word, raw or not. -/
def behindWord? (s : List Char) : Option (List Char) :=
  if ['r', '#'].isPrefixOf s then (rawWord? s).map Prod.snd else (word? s).map Prod.snd

/-- What a text goes on with behind a quote that is not part of a literal: a lifetime, which is a word
that neither a quote nor a number sign follows. Where that word begins a literal, the quote is a
character of its own. -/
def behindQuote? (s : List Char) : Option (Token × List Char) := do
  let behind ← behindWord? s
  if behind.head? = some '\'' then none
  else if behind.head? = some '#' && !(['r', '#'].isPrefixOf s) then none
  else if (literal? s).isSome then some (.punct '\'' true, s)
  else
    let (name, behind) ← wordToken? s
    match name with
    | .word text => some (.lifetime text, behind)
    | .rawWord text => some (.lifetime text, behind)
    | _ => none

/-- The mark that stands in the place of code that could not be read. It is a literal. -/
def errorMark : List Char := "(/*ERROR*/)".toList

/-- The token that a text begins with, if it is no bracket. -/
def token? (s : List Char) : Option (Token × List Char) :=
  if errorMark.isPrefixOf s then some (.literal .other, s.drop errorMark.length)
  else
    match literal? s with
    | some (literal, behind) => some (.literal literal, behind)
    | none =>
      match s with
      | '\'' :: rest => behindQuote? rest
      | c :: rest =>
        if beginsPunct s then some (.punct c (beginsPunct rest), rest) else wordToken? s
      | [] => none

/-- What a text begins with that is neither white space nor a comment that separates. -/
def lexemes? (s : List Char) : Option (List Lexeme × List Char) :=
  if isDocumentation s then
    (behindDocumentation s).map fun behind => ((documentationTokens s).map .token, behind)
  else
    match token? s, s with
    | some (token, behind), _ => some ([.token token], behind)
    | none, '(' :: rest => some ([.opening .round], rest)
    | none, ')' :: rest => some ([.closing .round], rest)
    | none, '[' :: rest => some ([.opening .square], rest)
    | none, ']' :: rest => some ([.closing .square], rest)
    | none, '\x7b' :: rest => some ([.opening .curly], rest)
    | none, '\x7d' :: rest => some ([.closing .curly], rest)
    | none, _ => none

/-- What a text is cut into, in at most `limit` steps. -/
def lexemesWithin : Nat → List Char → Option (List Lexeme)
  | 0, _ => none
  | limit + 1, s =>
    match skipSeparators (s.length + 1) s with
    | [] => some []
    | s => do
      let (front, behind) ← lexemes? s
      let rest ← lexemesWithin limit behind
      return front ++ rest

/-- The tokens that lexemes make up; none if a bracket is not closed by one of its kind. The brackets
that are open come with what stands in front of each, the innermost first; what has been read is kept
from the back to the front. -/
def nest : List (Bracket × List Token) → List Token → List Lexeme → Option (List Token)
  | [], before, [] => some before.reverse
  | _ :: _, _, [] => none
  | opened, before, .token token :: rest => nest opened (token :: before) rest
  | opened, before, .opening bracket :: rest => nest ((bracket, before) :: opened) [] rest
  | (bracket, outside) :: opened, before, .closing bracket' :: rest =>
    if bracket = bracket' then nest opened (.group bracket before.reverse :: outside) rest
    else none
  | [], _, .closing _ :: _ => none

/-- The tokens of a text; none if it is not made of tokens with balanced brackets. A byte-order mark
in front is left out. -/
def tokens? (s : String) : Option (List Token) :=
  let chars := match s.toList with
    | '\ufeff' :: rest => rest
    | chars => chars
  (lexemesWithin (chars.length + 1) chars).bind (nest [] [])

/-! ## Identifiers -/

/-- The identifier that a token is, as it is written. -/
def Token.identifier? : Token → Option String
  | .word text => if text ∈ keywords then none else some text
  | .rawWord text => some ("r#" ++ text)
  | _ => none

/-- The identifier that a text is, comments and white space around it left out. -/
def identifier? (s : String) : Option String :=
  match tokens? s with
  | some [token] => token.identifier?
  | _ => none

end LiveMarkup.Code
