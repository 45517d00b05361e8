/-!
# Log records

What the program has to say besides its results. Records are values that functions return, and the
outer layer decides what becomes of them.
-/

namespace LiveMarkup

/-- How much a record matters. -/
inductive LogLevel where
  | error
  | warn
  | info
  | debug
  | trace
  deriving DecidableEq, Repr

namespace LogLevel

/-- The name of the level. -/
def name : LogLevel → String
  | error => "ERROR"
  | warn => "WARN"
  | info => "INFO"
  | debug => "DEBUG"
  | trace => "TRACE"

/-- The rank of the level: the more a record matters, the lower. -/
def rank : LogLevel → Nat
  | error => 0
  | warn => 1
  | info => 2
  | debug => 3
  | trace => 4

end LogLevel

/-- One remark of the program, and the part of it that made the remark. -/
structure LogRecord where
  level : LogLevel
  component : String
  message : String
  deriving DecidableEq, Repr

end LiveMarkup
