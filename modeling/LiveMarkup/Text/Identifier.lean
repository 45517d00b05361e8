import LiveMarkup.Text.Identifier.Start
import LiveMarkup.Text.Identifier.Continue

/-!
# Identifier characters

Which characters may begin an identifier and which may follow. Whatever may begin one may also
follow.
-/

namespace LiveMarkup.Text

/-- Whether an identifier may begin with `c`: a letter in the sense of Unicode, or the low line. -/
def isIdentifierStart (c : Char) : Bool :=
  c == '_' || identifierStartRanges.contains c.toNat

/-- Whether an identifier may go on with `c`. -/
def isIdentifierContinue (c : Char) : Bool :=
  isIdentifierStart c || identifierExtendRanges.contains c.toNat

/-- Whatever may begin an identifier may also follow. -/
theorem isIdentifierContinue_of_start {c : Char} (h : isIdentifierStart c = true) :
    isIdentifierContinue c = true := by
  simp [isIdentifierContinue, h]

end LiveMarkup.Text
