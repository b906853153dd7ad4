import Attest.Eval.Basic
import Attest.Json.Value
import Attest.Source.Reading
/-!
# Definitions

A host defines names: by a text to be evaluated, by a JSON document, or as a class of
errors. Definitions are made one after the other, and each sees the earlier ones.
-/

namespace Attest

/-- What a name is defined as. -/
inductive Definition where
  /-- The value of a source text. -/
  | source (text : String)
  /-- The value of a JSON document. -/
  | json (text : String)
  /-- The last of a chain of error classes, each below the one before and the first below
  the root. -/
  | errorClass (names : List String)

/-- Why a definition or an evaluation gave no value. -/
inductive EvalFault where
  | unreadable (e : ReadError)
  | thrown (t : Thrown)
  | notJson

variable [PatternReader] [JsonReader]

/-- The value of a source text in a scope. -/
def evalText (text : String) (scope : Scope) : Run EvalFault Value := do
  match Form.read text with
  | .error e => Run.raise (.unreadable e)
  | .ok form =>
    let site ← Run.newSite
    match ← Run.attempt (form.evalAt site scope) with
    | .ok v => pure v
    | .error t => Run.raise (.thrown t)

namespace Definition

/-- The value that a name is defined as. -/
def value (d : Definition) (scope : Scope) : Run EvalFault Value :=
  match d with
  | source text => evalText text scope
  | json text =>
    match Value.ofJson? text with
    | some v => pure v
    | none => Run.raise .notJson
  | errorClass names => pure (.cls (.error (ErrorClass.descend names)))

end Definition

/-- The scope after definitions made one after the other. -/
def Scope.define (scope : Scope) : List (String × Definition) → Run EvalFault Scope
  | [] => pure scope
  | (name, d) :: rest => do
    let v ← d.value scope
    (scope.bind name v).define rest

end Attest
