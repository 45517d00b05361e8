import LiveMarkup.Settings.Table
import LiveMarkup.Template.Options

/-!
# Options from settings

A table of settings changes the options that it names and leaves the others at their defaults. Every
key has to be one of three, with the kind of value that belongs to it, and none may occur twice.
-/

namespace LiveMarkup.Settings

open Template (Options)

/-- Why a text holds no settings. -/
inductive SettingsError where
  /-- The text is no table, or has a value of a kind that no setting has. -/
  | malformed
  | repeatedKey (key : String)
  | unknownKey (key : String)
  /-- The value is not of the kind that belongs to the key. -/
  | unfitValue (key : String)
  deriving DecidableEq, Repr

/-- The error in words. -/
def SettingsError.message : SettingsError → String
  | malformed => "not a table of settings"
  | repeatedKey key => "duplicate key `" ++ key ++ "`"
  | unknownKey key =>
    "unknown field `" ++ key ++ "`, expected one of `runtime_path`, `events`, `strict_directives`"
  | unfitValue key => "invalid type for key `" ++ key ++ "`"

/-- The first key that occurs again behind its first occurrence. -/
def repeatedKey? : List Assignment → Option String
  | [] => none
  | a :: rest => if rest.any (·.key == a.key) then some a.key else repeatedKey? rest

/-- The options with one of them changed. -/
def Assignment.apply (options : Options) (a : Assignment) : Except SettingsError Options :=
  if a.key = "runtime_path" then
    match a.setting with
    | .text path => .ok { options with runtimePath := path }
    | _ => .error (.unfitValue a.key)
  else if a.key = "events" then
    match a.setting with
    | .list events => .ok { options with events }
    | _ => .error (.unfitValue a.key)
  else if a.key = "strict_directives" then
    match a.setting with
    | .flag strict => .ok { options with strictDirectives := strict }
    | _ => .error (.unfitValue a.key)
  else .error (.unknownKey a.key)

/-- The options that the text of a table of settings asks for. -/
def options (text : String) : Except SettingsError Options :=
  match table? text with
  | none => .error .malformed
  | some table =>
    match repeatedKey? table with
    | some key => .error (.repeatedKey key)
    | none => table.foldlM Assignment.apply Options.standard

end LiveMarkup.Settings
