import LiveMarkup.Markup.Node
import LiveMarkup.Template.Options
import LiveMarkup.Template.Loop
import LiveMarkup.Text.Blank

/-!
# The meaning of attributes

Two attributes direct the building of an element: one makes it depend on a condition, one repeats it.
Their names compare without regard to the case of letters, and of several with the same name only the
first counts. Every other attribute binds something to the node: a literal text; or, if its name
begins with the low line, an event or the value of an expression.
-/

namespace LiveMarkup.Template

open Markup (Tag Attribute)

/-- What directs the building of an element. -/
inductive Directive where
  /-- The element is there if the condition holds. -/
  | when (condition : String)
  /-- The element is there once for every item. -/
  | each (loop : Loop)
  deriving DecidableEq, Repr

/-- What an attribute binds to the node of its element. -/
inductive Binding where
  /-- A text under a name. -/
  | literal (name value : String)
  /-- The value of an expression under a name. -/
  | dynamic (name expression : String)
  /-- A statement to be run when an event occurs. -/
  | event (event statement : String)
  deriving DecidableEq, Repr

/-- Something that does not keep a document from being compiled, and its line. -/
structure Diagnostic where
  line : Nat
  message : String
  deriving DecidableEq, Repr

/-- The diagnostic with its line, in words. -/
def Diagnostic.text (d : Diagnostic) : String :=
  "line " ++ toString d.line ++ ": " ++ d.message

/-- A loop directive that was dropped, as it is written and where. -/
structure DroppedLoop where
  attrib : Attribute
  element : String
  line : Nat
  deriving DecidableEq, Repr

/-- The diagnostic for a loop that was dropped. -/
def DroppedLoop.diagnostic (d : DroppedLoop) : Diagnostic where
  line := d.line
  message := d.attrib.name ++ "=\"" ++ d.attrib.value ++ "\" on <" ++ d.element
    ++ "> is not `<item> of|in <collection>`; directive ignored"

/-- What the attributes of an element mean. -/
structure Classified where
  directive : Option Directive
  bindings : List Binding
  /-- The loop that was dropped, if there was one. -/
  dropped : Option DroppedLoop
  deriving DecidableEq, Repr

/-- What there is to be remarked on the attributes. -/
def Classified.diagnostics (c : Classified) : List Diagnostic :=
  c.dropped.toList.map DroppedLoop.diagnostic

/-- Why the attributes of an element have no meaning. -/
inductive DirectiveError where
  /-- A loop that does not have the form of one, where that is not to be tolerated. -/
  | malformed (loop : DroppedLoop)
  /-- A condition and a loop on one element. -/
  | conflicting (element : String) (line : Nat)
  deriving DecidableEq, Repr

/-- The name of the directive that holds a condition. -/
def conditionName : String := "_if"

/-- The name of the directive that holds a loop. -/
def loopName : String := "_foreach"

/-- Whether an attribute is a directive. -/
def isDirective (a : Attribute) : Bool :=
  Text.equalFold a.name conditionName || Text.equalFold a.name loopName

/-- What an attribute binds that is no directive. -/
def bindingOf (options : Options) (a : Attribute) : Binding :=
  match a.name.toList with
  | '_' :: first :: rest =>
    let name := String.ofList (first :: rest)
    match options.eventName? name with
    | some event => .event event a.value
    | none => .dynamic name a.value
  | _ => .literal a.name a.value

/-- The condition on an element, without white space around it. -/
def condition? (attributes : List Attribute) : Option String :=
  (attributes.find? (Text.equalFold ·.name conditionName)).map fun a =>
    String.ofList (Text.trim a.value.toList)

/-- The attribute of an element that holds a loop. -/
def loopAttribute? (attributes : List Attribute) : Option Attribute :=
  attributes.find? (Text.equalFold ·.name loopName)

/-- What the attributes of an element mean. -/
def classify (options : Options) (tag : Tag) : Except DirectiveError Classified :=
  let bindings := (tag.attributes.filter (!isDirective ·)).map (bindingOf options)
  let condition := condition? tag.attributes
  match loopAttribute? tag.attributes with
  | none => .ok ⟨condition.map .when, bindings, none⟩
  | some a =>
    match Loop.read? a.value with
    | some loop =>
      match condition with
      | some _ => .error (.conflicting tag.name tag.line)
      | none => .ok ⟨some (.each loop), bindings, none⟩
    | none =>
      let dropped : DroppedLoop := ⟨a, tag.name, tag.line⟩
      if options.strictDirectives then .error (.malformed dropped)
      else .ok ⟨condition.map .when, bindings, some dropped⟩

end LiveMarkup.Template
