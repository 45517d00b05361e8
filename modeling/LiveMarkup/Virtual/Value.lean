import LiveMarkup.Decimal.Notation
import LiveMarkup.Text.Escaped

/-!
# Property values

What may stand under a property name of a virtual node: a text, a 64-bit integer, a double, a truth
value, or the handler of an event. The type of handlers is a parameter: all that this library asks of
handlers is whether two of them are the same one.
-/

namespace LiveMarkup

open Decimal (Double)

/-- A value stored under a property name. -/
inductive Value (H : Type) where
  | text (text : String)
  | int (int : Int64)
  | float (float : Double)
  | bool (bool : Bool)
  | handler (handler : H)
  deriving DecidableEq, Repr

namespace Value

variable {H : Type}

/-- An integer as a value. One that 64 bits cannot hold becomes the nearest that they can. -/
def ofInt (i : Int) : Value H :=
  if i < Int64.minValue.toInt then .int Int64.minValue
  else if Int64.maxValue.toInt < i then .int Int64.maxValue
  else .int (Int64.ofInt i)

/-- The text of a textual value. -/
def asText? : Value H → Option String
  | text s => some s
  | _ => none

/-- The handler of a value that is one. -/
def asHandler? : Value H → Option H
  | handler h => some h
  | _ => none

/-- Whether the value is the handler of an event. -/
def isHandler : Value H → Bool
  | handler _ => true
  | _ => false

theorem isHandler_eq_isSome (v : Value H) : v.isHandler = v.asHandler?.isSome := by
  cases v <;> rfl

/-- The value as the text that a toolkit would show. -/
def display : Value H → String
  | text s => s
  | int i => toString i.toInt
  | float x => Decimal.Style.plain.text x
  | bool b => if b then "true" else "false"
  | handler _ => "<handler>"

/-- The value with its kind, as it is shown to a person. A handler has no inside to show. -/
def debug : Value H → String
  | text s => "Text(" ++ Text.debug s ++ ")"
  | int i => "Int(" ++ toString i.toInt ++ ")"
  | float x => "Float(" ++ Decimal.Style.debug.text x ++ ")"
  | bool b => if b then "Bool(true)" else "Bool(false)"
  | handler _ => "Handler"

/-- Equality of values: doubles compare as numbers, so that a NaN differs from itself, and handlers
by identity. -/
def equals [DecidableEq H] : Value H → Value H → Bool
  | text s, text t => s == t
  | int i, int j => i == j
  | float x, float y => x.equals y
  | bool a, bool b => a == b
  | handler g, handler h => decide (g = h)
  | _, _ => false

end Value

end LiveMarkup
