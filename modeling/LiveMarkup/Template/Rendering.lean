import LiveMarkup.Template.Program
import LiveMarkup.Text.Escaped

/-!
# Programs as text

A program is written a statement at a time, in lines that are indented by the depth of their block.
Expressions, conditions and statements that come from the markup are copied as they are; only texts
are quoted.
-/

namespace LiveMarkup.Template

/-- A line of generated code. What is copied from the markup may hold line feeds of its own. -/
structure Line where
  depth : Nat
  text : String
  deriving DecidableEq, Repr

/-- A line as it is written: four spaces for every level, the text, and a line feed. -/
def Line.render (line : Line) : String :=
  String.join (List.replicate line.depth "    ") ++ line.text ++ "\n"

/-- Lines as they are written. -/
def renderLines (lines : List Line) : String :=
  String.join (lines.map Line.render)

/-- The name of a variable. -/
def variableName (n : Nat) : String :=
  "__v" ++ toString n

/-- The statement of a handler without what ends it. -/
def handlerCode (code : String) : String :=
  String.ofList (Text.dropEndWhile (· == ';') (Text.trim code.toList))

/-- The line that opens a block. -/
def Head.opening : Head → String
  | .once => "\x7b"
  | .when condition => "if (" ++ condition ++ ") \x7b"
  | .each loop => "for " ++ loop.item ++ " in (" ++ loop.collection ++ ") \x7b"

/-- The beginning of a line that sets a property. -/
def setOpening (runtime : String) (variableNumber : Nat) (name : String) : String :=
  variableName variableNumber ++ ".set(" ++ Text.literal name ++ ", " ++ runtime
    ++ "::PropValue::from("

/-- The lines that set a property. -/
def setLines (runtime : String) (depth variableNumber : Nat) (name : String) :
    Source → List Line
  | .text value =>
    [⟨depth, setOpening runtime variableNumber name ++ Text.literal value ++ "));"⟩]
  | .expression code =>
    [⟨depth, setOpening runtime variableNumber name ++ code ++ "));"⟩]
  | .handler code =>
    [⟨depth, setOpening runtime variableNumber name ++ runtime ++ "::EventHandler::new(\x7b"⟩,
      ⟨depth + 1, "let this = ::std::clone::Clone::clone(self);"⟩,
      ⟨depth + 1, "move || \x7b"⟩,
      ⟨depth + 2, handlerCode code ++ ";"⟩,
      ⟨depth + 1, "\x7d"⟩,
      ⟨depth, "\x7d)));"⟩]

mutual

/-- The lines of a statement. -/
def Statement.lines (runtime : String) (depth : Nat) : Statement → List Line
  | .declare n tag =>
    [⟨depth, "let mut " ++ variableName n ++ " = " ++ runtime ++ "::VNode::new("
      ++ Text.literal tag ++ ");"⟩]
  | .set n name source => setLines runtime depth n name source
  | .block head body =>
    ⟨depth, head.opening⟩ :: Statement.linesAll runtime (depth + 1) body ++ [⟨depth, "\x7d"⟩]
  | .push parent child =>
    [⟨depth, variableName parent ++ ".push(" ++ variableName child ++ ");"⟩]

/-- The lines of statements in a row. -/
def Statement.linesAll (runtime : String) (depth : Nat) : List Statement → List Line
  | [] => []
  | statement :: rest =>
    statement.lines runtime depth ++ Statement.linesAll runtime depth rest

end

end LiveMarkup.Template
