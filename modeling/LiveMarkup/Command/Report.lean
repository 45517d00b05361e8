import LiveMarkup.Build.Failure
import LiveMarkup.Log
import LiveMarkup.Text.Control

/-!
# What a command tells

Log records and failures as the lines that a person gets to see. Where a message has several lines,
those behind the first are indented. A record does nothing to a terminal but show itself.
-/

namespace LiveMarkup.Command

open Build (Failure)

/-- A text with spaces put behind each of its line feeds. -/
def indentLines (width : Nat) (text : String) : String :=
  String.ofList (text.toList.flatMap fun c =>
    if c = '\n' then c :: List.replicate width ' ' else [c])

/-- A text with spaces in front that bring it to a width. -/
def padLeft (width : Nat) (text : String) : String :=
  String.ofList (List.replicate (width - text.length) ' ') ++ text

/-- A text with spaces behind that bring it to a width. -/
def padRight (width : Nat) (text : String) : String :=
  text ++ String.ofList (List.replicate (width - text.length) ' ')

/-- A record as it is told. -/
def recordLine (r : LogRecord) : String :=
  Text.plain
    ("[" ++ padRight 5 r.level.name ++ " " ++ r.component ++ "] " ++ indentLines 4 r.message ++ "\n")

/-- The least weighty level that is told. -/
def levelOf : Nat → LogLevel
  | 0 => .warn
  | 1 => .info
  | 2 => .debug
  | _ => .trace

/-- The records that are weighty enough, as they are told. -/
def recordLines (verbosity : Nat) (records : List LogRecord) : String :=
  String.join ((records.filter fun r => r.level.rank ≤ (levelOf verbosity).rank).map recordLine)

/-- Causes behind their numbers, from `first` on. -/
def numberedCauses (first : Nat) : List String → String
  | [] => ""
  | cause :: rest =>
    padLeft 5 (toString first) ++ ": " ++ indentLines 7 cause ++ "\n"
      ++ numberedCauses (first + 1) rest

/-- What a failure was caused by. A single cause has no number. -/
def causeLines : List String → String
  | [] => ""
  | [cause] => "\nCaused by:\n    " ++ indentLines 4 cause ++ "\n"
  | causes => "\nCaused by:\n" ++ numberedCauses 0 causes

/-- A failure as it is told. -/
def failureLines (f : Failure) : String :=
  "Error: " ++ f.message ++ "\n" ++ causeLines f.causes

end LiveMarkup.Command
