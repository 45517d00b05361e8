/-!
# The command line

A command line names one of two commands, the document that the command is for, and options. What
begins with a hyphen and is longer than one is an option: behind two hyphens stands a name, behind one
hyphen a row of letters. The value of an option stands behind an equals sign or in the next argument,
and cannot begin with a hyphen there. Two hyphens alone end the options.

Arguments are looked at from left to right. The first one that is out of place makes the whole line a
misuse, and a request for help or for the version in front of it is granted. Options that take a
value, and `--strict`, are given once at most. Paths are not empty.
-/

namespace LiveMarkup.Command

/-- What both commands are told. -/
structure Target where
  input : String
  host : String
  /-- The path of a file of settings. -/
  settings : Option String
  strict : Bool
  runtimePath : Option String
  deriving DecidableEq, Repr

/-- A command. -/
inductive Task where
  | build (target : Target) (directory : Option String)
  | check (target : Target)
  deriving DecidableEq, Repr

/-- What a command line asks for. -/
inductive Request where
  | help
  | version
  | misuse
  /-- A command, and how much is to be told on the way. -/
  | run (verbosity : Nat) (task : Task)
  deriving DecidableEq, Repr

/-- The two commands by name. -/
inductive Verb where
  | build
  | check
  deriving DecidableEq, Repr

/-- What has been read of the arguments of a command. -/
structure Draft where
  input : Option String
  host : Option String
  settings : Option String
  runtimePath : Option String
  directory : Option String
  strict : Bool
  verbosity : Nat
  deriving DecidableEq, Repr

/-- Nothing read. -/
def Draft.blank : Draft := ⟨none, none, none, none, none, false, 0⟩

/-- An argument by its form. -/
inductive Argument where
  /-- Two hyphens alone. -/
  | separator
  /-- A name behind two hyphens, and the value behind its equals sign. -/
  | named (name : List Char) (value : Option String)
  /-- Letters behind a hyphen. -/
  | letters (letters : List Char)
  | plain (text : String)
  deriving DecidableEq, Repr

/-- The form of an argument. -/
def Argument.ofText (text : String) : Argument :=
  match text.toList with
  | ['-', '-'] => .separator
  | '-' :: '-' :: rest =>
    let name := rest.takeWhile (· ≠ '=')
    .named name <|
      match rest.drop name.length with
      | [] => none
      | _ :: value => some (String.ofList value)
  | ['-'] => .plain text
  | '-' :: row => .letters row
  | _ => .plain text

/-- Whether the next argument can be the value of an option. -/
def isValue (text : String) : Bool :=
  match Argument.ofText text with
  | .plain _ => true
  | _ => false

namespace Draft

/-- The value in a place that was empty. -/
def fill (place : Option String) (value : String) : Option String :=
  match place with
  | none => some value
  | some _ => none

/-- The path in a place that was empty. -/
def fillPath (place : Option String) (path : String) : Option String :=
  if path.isEmpty then none else fill place path

/-- The draft with the document. -/
def setInput (draft : Draft) (path : String) : Option Draft :=
  (fillPath draft.input path).map fun path => { draft with input := some path }

/-- Whether a command has an option with this name that takes a value. -/
def takesValue (verb : Verb) (name : List Char) : Bool :=
  name = "host".toList || name = "config".toList || name = "runtime-path".toList
    || (verb = .build && name = "out-dir".toList)

/-- The draft with the value of an option. -/
def setValue (draft : Draft) (name : List Char) (value : String) : Option Draft :=
  if name = "host".toList then
    (fill draft.host value).map fun value => { draft with host := some value }
  else if name = "config".toList then
    (fillPath draft.settings value).map fun value => { draft with settings := some value }
  else if name = "runtime-path".toList then
    (fill draft.runtimePath value).map fun value => { draft with runtimePath := some value }
  else if name = "out-dir".toList then
    (fillPath draft.directory value).map fun value => { draft with directory := some value }
  else none

/-- The draft with an option that is given by its name alone. -/
def setFlag (draft : Draft) (name : List Char) : Option Draft :=
  if name = "strict".toList then
    if draft.strict then none else some { draft with strict := true }
  else if name = "verbose".toList then some { draft with verbosity := draft.verbosity + 1 }
  else none

/-- What the draft asks for, given how much is to be told in any case. -/
def request (draft : Draft) (verb : Verb) (verbosity : Nat) : Request :=
  match draft.input, draft.host with
  | some input, some host =>
    let target : Target := ⟨input, host, draft.settings, draft.strict, draft.runtimePath⟩
    let verbosity := if draft.verbosity = 0 then verbosity else draft.verbosity
    match verb with
    | .build => .run verbosity (.build target draft.directory)
    | .check => .run verbosity (.check target)
  | _, _ => .misuse

end Draft

/-- The letters that count, or the request that one of the letters makes; `versioned` tells whether the
version may be asked for. -/
def readLetters (versioned : Bool) (verbosity : Nat) : List Char → Except Request Nat
  | [] => .ok verbosity
  | 'v' :: rest => readLetters versioned (verbosity + 1) rest
  | 'h' :: _ => .error .help
  | 'V' :: _ => .error (if versioned then .version else .misuse)
  | _ => .error .misuse

/-- The arguments of a command behind two hyphens, where all are plain. -/
def readPlain (draft : Draft) : List String → Option Draft
  | [] => some draft
  | text :: rest => (draft.setInput text).bind fun draft => readPlain draft rest

/-- The arguments of a command. -/
def readTask (verb : Verb) (verbosity : Nat) (draft : Draft) : List String → Request
  | [] => draft.request verb verbosity
  | text :: rest =>
    match Argument.ofText text with
    | .separator =>
      match readPlain draft rest with
      | some draft => draft.request verb verbosity
      | none => .misuse
    | .letters letters =>
      match readLetters false draft.verbosity letters with
      | .ok count => readTask verb verbosity { draft with verbosity := count } rest
      | .error request => request
    | .plain text =>
      match draft.setInput text with
      | some draft => readTask verb verbosity draft rest
      | none => .misuse
    | .named name (some value) =>
      if Draft.takesValue verb name then
        match draft.setValue name value with
        | some draft => readTask verb verbosity draft rest
        | none => .misuse
      else .misuse
    | .named name none =>
      if Draft.takesValue verb name then
        match rest with
        | value :: rest =>
          if isValue value then
            match draft.setValue name value with
            | some draft => readTask verb verbosity draft rest
            | none => .misuse
          else .misuse
        | [] => .misuse
      else if name = "help".toList then .help
      else
        match draft.setFlag name with
        | some draft => readTask verb verbosity draft rest
        | none => .misuse

/-- What help is asked for with: nothing, or the name of one command. -/
def readHelp : List String → Request
  | [] => .help
  | [name] => if name ∈ ["build", "check", "help"] then .help else .misuse
  | _ => .misuse

/-- A whole command line, of which `verbosity` has been counted. -/
def readRequest (verbosity : Nat) : List String → Request
  | [] => .misuse
  | text :: rest =>
    match Argument.ofText text with
    | .separator => .misuse
    | .letters letters =>
      match readLetters true verbosity letters with
      | .ok count => readRequest count rest
      | .error request => request
    | .named name none =>
      if name = "help".toList then .help
      else if name = "version".toList then .version
      else if name = "verbose".toList then readRequest (verbosity + 1) rest
      else .misuse
    | .named _ (some _) => .misuse
    | .plain "build" => readTask .build verbosity .blank rest
    | .plain "check" => readTask .check verbosity .blank rest
    | .plain "help" => readHelp rest
    | .plain _ => .misuse

/-- What a command line asks for. -/
def Request.ofArguments (arguments : List String) : Request :=
  readRequest 0 arguments

end LiveMarkup.Command
