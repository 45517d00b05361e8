import LiveMarkup.Markup.Construct

/-!
# Faults of markup

Why a text is no document, and where.
-/

namespace LiveMarkup.Markup

open Text (Position)

/-- What is wrong with a text that is no document. -/
inductive Fault where
  /-- The grammar admits none of the given constructs where the text leaves it. -/
  | unexpected (expected : List Construct)
  /-- An attribute has the name of an earlier one of its element. -/
  | duplicateAttribute (name element : String)
  /-- A reference stands for no character. -/
  | unknownReference (written : String)
  /-- The closing tag of an element has another name than the opening one. -/
  | mismatchedClose (close name : String) (line : Nat)
  /-- Bytes that are not UTF-8. -/
  | invalidUtf8
  deriving DecidableEq, Repr

/-- The fault in words. -/
def Fault.message : Fault → String
  | unexpected expected => explain expected
  | duplicateAttribute name element =>
    "duplicate attribute `" ++ name ++ "` on <" ++ element ++ ">"
  | unknownReference written => "unknown entity `&" ++ written ++ "`"
  | mismatchedClose close name line =>
    "closing tag </" ++ close ++ "> does not match <" ++ name ++ "> opened at line "
      ++ toString line
  | invalidUtf8 => "invalid UTF-8"

/-- Why a text cannot be read as a document. -/
inductive ReadError where
  | malformed (position : Position) (fault : Fault)
  /-- The text has everything that may stand around a root element, and none. -/
  | noRootElement
  deriving DecidableEq, Repr

end LiveMarkup.Markup
