import LiveMarkup.Text.Case

/-!
# Options of a compilation
-/

namespace LiveMarkup.Template

/-- What a compilation can be told. Everything has a default. -/
structure Options where
  /-- The path under which generated code finds the types that it needs. -/
  runtimePath : String
  /-- The names of events. An attribute named after one binds a handler. -/
  events : List String
  /-- Whether a malformed loop is an error; otherwise it is dropped. -/
  strictDirectives : Bool
  deriving DecidableEq, Repr

namespace Options

/-- The options of a compilation that was told nothing. -/
def standard : Options where
  runtimePath := "::trellis_runtime"
  events := ["click", "double_click", "change", "input", "submit", "focus", "blur", "key_down",
    "key_up", "mouse_enter", "mouse_leave"]
  strictDirectives := false

instance : Inhabited Options := ⟨standard⟩

/-- The first event whose name is the given one but for the case of letters, as the options spell
it. -/
def eventName? (options : Options) (name : String) : Option String :=
  options.events.find? fun event => Text.equalFold event name

end Options

end LiveMarkup.Template
