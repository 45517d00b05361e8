import LiveMarkup.Code.TypeName
import LiveMarkup.Log
import LiveMarkup.Markup.Document
import LiveMarkup.Template.Error
import LiveMarkup.Template.Rendering

/-!
# Compiling documents

A document and the name of a host type become a module of generated code, in which the host gets a
function that builds the view. The module imports what the document asks for. It is private and named
after the host.

The host is looked at first, then the markup, then the directives.
-/

namespace LiveMarkup.Template

open Markup (Document)

/-- Generated code. -/
structure View where
  /-- The name of the module that the code is in. -/
  moduleName : String
  source : String
  diagnostics : List Diagnostic
  deriving DecidableEq, Repr

/-! ## Names -/

/-- An identifier in lower case, with a low line in front of every capital that follows a small letter
or a digit; `small` tells whether one comes before. -/
def snakeChars (small : Bool) : List Char → List Char
  | [] => []
  | c :: rest =>
    if c.isUpper then
      (if small then ['_', c.toLower] else [c.toLower]) ++ snakeChars false rest
    else c :: snakeChars (c.isLower || c.isDigit) rest

/-- The name of the module for a host whose type has the given identifier. -/
def moduleName (identifier : String) : String :=
  "__trellis_" ++ String.ofList (snakeChars false identifier.toList)

/-! ## Code -/

/-- What an instruction asks to be imported, without the white space and the semicolons around it. -/
def importPath (data : String) : String :=
  String.ofList (Text.trim (Text.dropEndWhile (· == ';') (Text.trim data.toList)))

/-- The lines of the imports; where nothing is named, nothing is imported. -/
def importLines (document : Document) : List Line :=
  ((document.imports.map importPath).filter (!·.isEmpty)).map fun path =>
    ⟨1, "use " ++ path ++ ";"⟩

/-- The line that tells where the code comes from. -/
def originLine (origin : Option String) : Line :=
  match origin with
  | some file => ⟨0, "// @generated by trellis from " ++ file ++ "; do not edit."⟩
  | none => ⟨0, "// @generated by trellis; do not edit."⟩

/-- The lines of the function that builds the view. -/
def bodyLines (options : Options) (plan : Plan) : List Line :=
  Statement.linesAll options.runtimePath 3 plan.program ++ [⟨3, variableName 0⟩]

/-- The lines of a module. -/
def moduleLines (options : Options) (origin : Option String) (host name : String)
    (document : Document) (plan : Plan) : List Line :=
  [originLine origin,
    ⟨0, "#[allow(unused_imports)]"⟩,
    ⟨0, "mod " ++ name ++ " \x7b"⟩,
    ⟨1, "use super::*;"⟩]
    ++ importLines document
    ++ [⟨0, ""⟩,
      ⟨1, "impl " ++ options.runtimePath ++ "::Rebuild for " ++ host ++ " \x7b"⟩,
      ⟨2, "#[allow(unused_mut, unused_parens, unused_braces, unused_variables, "
        ++ "redundant_semicolons, clippy::all)]"⟩,
      ⟨2, "fn build_virtual_tree(&self) -> " ++ options.runtimePath ++ "::VNode \x7b"⟩]
    ++ bodyLines options plan
    ++ [⟨2, "\x7d"⟩, ⟨1, "\x7d"⟩, ⟨0, "\x7d"⟩]

/-- The generated code for a plan. -/
def viewOf (options : Options) (origin : Option String) (host identifier : String)
    (document : Document) (plan : Plan) : View where
  moduleName := moduleName identifier
  source := renderLines
    (moduleLines options origin host (moduleName identifier) document plan)
  diagnostics := plan.documentDiagnostics

/-! ## Log records -/

/-- The record of a loop that was dropped. -/
def DroppedLoop.record (d : DroppedLoop) : LogRecord where
  level := .warn
  component := "trellis_markup::directive"
  message := "dropping malformed " ++ d.attrib.name ++ "=\"" ++ d.attrib.value ++ "\" on <"
    ++ d.element ++ "> at line " ++ toString d.line

/-- The record of a document that was compiled, which counts its elements and the variables that hold
them. -/
def compiledRecord (origin : Option String) (host : String) (plan : Plan) : LogRecord where
  level := .debug
  component := "trellis_markup::codegen"
  message := "compiled " ++ origin.getD "<markup>" ++ " for `" ++ host ++ "`: "
    ++ toString plan.size ++ " elements, " ++ toString plan.size ++ " bindings"

/-! ## The compilation -/

/-- What comes of a compilation, and what is remarked on the way. -/
structure Compilation where
  result : Except CompileError View
  records : List LogRecord

/-- Compiles a document that has been read, for a host whose type has the given identifier. -/
def compileDocument (options : Options) (origin : Option String) (host identifier : String)
    (document : Document) : Compilation :=
  let warnings := (droppedLoops options document.tags).map DroppedLoop.record
  match Plan.ofDocument options document with
  | .error e => ⟨.error (.ofDirectiveError e), warnings⟩
  | .ok plan =>
    ⟨.ok (viewOf options origin host identifier document plan),
      warnings ++ [compiledRecord origin host plan]⟩

/-- Compiles a text, which comes from the file `origin` if it comes from one. -/
def compilation (options : Options) (origin : Option String) (host source : String) :
    Compilation :=
  match Code.typeName? host with
  | none => ⟨.error (.invalidHost host), []⟩
  | some identifier =>
    match Document.read source with
    | .error e => ⟨.error (.ofReadError e), []⟩
    | .ok document => compileDocument options origin host identifier document

/-- The generated code for a text and a host. -/
def compile (options : Options) (host source : String) : Except CompileError View :=
  (compilation options none host source).result

end LiveMarkup.Template
