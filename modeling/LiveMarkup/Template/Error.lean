import LiveMarkup.Disk.Error
import LiveMarkup.Disk.Path
import LiveMarkup.Markup.Error
import LiveMarkup.Template.Classify

/-!
# Why a document cannot be compiled
-/

namespace LiveMarkup.Template

/-- Why there is no code for a document. -/
inductive CompileError where
  /-- There is no file at the path. -/
  | templateNotFound (path : Disk.Path)
  | malformedMarkup (position : Text.Position) (fault : Markup.Fault)
  | noRootElement
  | malformedDirective (loop : DroppedLoop)
  | conflictingDirectives (element : String) (line : Nat)
  /-- The host is not the name of a type. -/
  | invalidHost (host : String)
  | unreadable (path : Disk.Path) (cause : Disk.SystemError)
  deriving DecidableEq, Repr

namespace CompileError

/-- The error in words. -/
def message : CompileError → String
  | templateNotFound path => "no markup document at " ++ path.shown
  | malformedMarkup position fault =>
    "malformed markup at line " ++ toString position.line ++ ", column "
      ++ toString position.column ++ ": " ++ fault.message
  | noRootElement => "markup document has no root element"
  | malformedDirective d =>
    "malformed directive " ++ d.attrib.name ++ "=\"" ++ d.attrib.value ++ "\" on <" ++ d.element
      ++ "> at line " ++ toString d.line
      ++ ": expected `<item> of <collection>` or `<item> in <collection>`"
  | conflictingDirectives element line =>
    "<" ++ element ++ "> at line " ++ toString line
      ++ " carries both _if and _foreach; split it into nested elements"
  | invalidHost host => "invalid host type path `" ++ host ++ "`"
  | unreadable path cause => "failed to read " ++ path.shown ++ ": " ++ cause.text

/-- Whether a build goes on without the code for the document: nothing is wrong but the markup. -/
def isSkippable : CompileError → Bool
  | templateNotFound _ => true
  | malformedMarkup .. => true
  | noRootElement => true
  | _ => false

/-- The error that another one was caused by. -/
def cause? : CompileError → Option String
  | unreadable _ cause => some cause.text
  | _ => none

/-- The error and what it was caused by, the outermost first. -/
def chain (e : CompileError) : List String :=
  e.message :: e.cause?.toList

/-- An error of reading. -/
def ofReadError : Markup.ReadError → CompileError
  | .malformed position fault => malformedMarkup position fault
  | .noRootElement => noRootElement

/-- An error of classification. -/
def ofDirectiveError : DirectiveError → CompileError
  | .malformed loop => malformedDirective loop
  | .conflicting element line => conflictingDirectives element line

end CompileError

end LiveMarkup.Template
