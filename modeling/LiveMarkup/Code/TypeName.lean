import LiveMarkup.Code.Statement

/-!
# The name of a type

The phrases of the language tied together, and the name of a type read with them: the path that it has.
-/

namespace LiveMarkup.Code

/-- How a phrase is read, given how those in it are. -/
def rule (g : Grammar) : Grammar
  | .type plus => typeForm g plus
  | .argument => argument g
  | .parameter => parameter g
  | .expression curly => expressionForm g curly
  | .operand curly => operand g curly
  | .operation form curly least => operation g form curly least
  | .leading => leading g
  | .pattern => pattern g
  | .statements => statements g
  | .item => item g
  | .fields => fields g
  | .useTree rooted => useTree g rooted

/-- How phrases are read that are nested at most `depth` deep. -/
def grammarWithin : Nat → (p : Phrase) → List Token → Option (p.Form × List Token)
  | 0, _, _ => none
  | depth + 1, p, ts => rule (fun p ts => grammarWithin depth p ts) p ts

/-- How phrases are read in a text of the given length. Of phrases that are nested in each other without
a token between them there are never as many as sixteen. -/
def grammarFor (length : Nat) : Grammar :=
  fun p ts => grammarWithin (16 * (length + 1)) p ts

/-- The identifier of the type that a text names, which is that of the last segment of its path;
none if the text is no path. -/
def typeName? (s : String) : Option String := do
  let tokens ← tokens? s
  match path (grammarFor s.length) false tokens with
  | some (form, []) => some form.name
  | _ => none

end LiveMarkup.Code
