import Attest.Check.Basic
import Attest.Engine
/-!
# How an expected value is compared

The value of the expected form decides what is asked of the actual one (`Strategy.ofValue`):
the first rule that applies is taken. `Check.judge` is the answer once the outcome of the
subject is known.
-/

namespace Attest

/-- What is asked of the actual value. -/
inductive Strategy where
  /-- A schema accepts it. -/
  | schema (name : String) (validator : Validator)
  /-- A function answers it with something true. -/
  | predicate (f : Value)
  /-- Computing it throws an instance of a class. -/
  | throws (c : ErrorClass)
  /-- It is an instance of a class. -/
  | instances (c : Class)
  /-- A pattern matches its text. -/
  | pattern (p : Pattern)
  /-- It equals the expected one. -/
  | equal (expected : Value)

namespace Strategy

/-- The word for a strategy. -/
def name : Strategy → String
  | schema .. => "schema-valid"
  | predicate _ => "predicate"
  | throws _ => "throws"
  | instances _ => "instance"
  | pattern _ => "pattern"
  | equal _ => "equal"

/-- The strategy for a keyword: its schema if there is one, and equality otherwise. -/
def ofKeyword (name : String) : Option Validator → Strategy
  | some validator =>
    if validator.isRegistered name then schema name validator else equal (.keyword name)
  | none => equal (.keyword name)

/-- The strategy for an expected value. -/
def ofValue (expected : Value) (raise : Bool) (schemas : Option Validator) : Strategy :=
  match expected with
  | .keyword name => ofKeyword name schemas
  | .fn _ => predicate expected
  | .cls (.error c) => if raise then throws c else instances (.error c)
  | .cls c => instances c
  | .pattern p => pattern p
  | v => equal v

/-- Only a validator makes a schema of a keyword. -/
theorem schemas_of_schema {v : Value} {raise : Bool} {schemas : Option Validator} {name : String}
    {validator : Validator} (h : ofValue v raise schemas = schema name validator) :
    schemas = some validator := by
  unfold ofValue at h
  split at h
  · unfold ofKeyword at h
    split at h
    · split at h
      · cases h
        rfl
      · cases h
    · cases h
  · cases h
  · split at h <;> cases h
  · cases h
  · cases h
  · cases h

/-- The function that decides is the expected value itself. -/
theorem eq_of_predicate {v f : Value} {raise : Bool} {schemas : Option Validator}
    (h : ofValue v raise schemas = predicate f) : f = v := by
  unfold ofValue at h
  split at h
  · unfold ofKeyword at h
    split at h
    · split at h <;> cases h
    · cases h
  · cases h
    rfl
  · split at h <;> cases h
  · cases h
  · cases h
  · cases h

end Strategy

namespace Check

variable {ε : Type}

/-- The event of a check that an error is thrown. -/
def throwsEvent (c : Check) (expected : ErrorClass) : Outcome → Event
  | .error t => c.comparison (t.isInstance expected) t.render
  | .ok v => c.event .fail (v.render ++ " (nothing thrown)")

/-- The event of a call of a predicate. -/
def predicateEvent (c : Check) (f actual : Value) : Run ε Event := do
  let call := "(" ++ c.expectedText ++ " " ++ actual.render ++ ")"
  match ← Run.attempt (f.applyAt c.site.decision [actual]) with
  | .ok answer =>
    pure (if answer.isTruthy then c.event .pass call else c.event .fail ("(not " ++ call ++ ")"))
  | .error t => pure (c.thrownEvent t)

/-- The event of a question to a schema. The reason of a refusal takes the place of the
message. -/
def schemaEvent (c : Check) (validator : Validator) (name : String) (actual : Value) :
    Run ε Event := do
  if ← Run.widen (validator.validate c.site.decision name actual) then
    pure (c.event .pass actual.render)
  else
    let reason ← Run.widen (validator.explain c.site.reason name actual)
    pure { c.event .fail actual.render with message := some reason }

/-- The event of a comparison of two values. A difference is told about values, so the text
of the expected value takes the place of that of its form. -/
def equalEvent (c : Check) (renderer : Option Renderer) (expected actual : Value) : Event :=
  if expected == actual then c.event .pass actual.render
  else
    match renderer with
    | some render =>
      { c.event .fail actual.render with
        expected := expected.render, difference := some (render expected actual) }
    | none => c.event .fail actual.render

/-- The event of a check once its strategy and the outcome of its subject are known. -/
def judge (c : Check) (engine : Engine) (strategy : Strategy) (outcome : Outcome) :
    Run ε Event :=
  match strategy, outcome with
  | .throws expected, outcome => pure (c.throwsEvent expected outcome)
  | _, .error t => pure (c.thrownEvent t)
  | .schema name validator, .ok actual => c.schemaEvent validator name actual
  | .predicate f, .ok actual => c.predicateEvent f actual
  | .instances expected, .ok actual => pure (c.comparison (expected.isInstance actual) actual.render)
  | .pattern p, .ok actual => pure (c.comparison (p.isFound actual.stringForm) actual.render)
  | .equal expected, .ok actual => pure (c.equalEvent engine.renderer expected actual)

/-- Runs a check: the expected form is evaluated first, then the subject, each once. -/
def run (c : Check) (engine : Engine) : Run ε Event := do
  match ← Run.attempt (c.expected.evalAt c.site.expected c.scope) with
  | .error t => pure (c.thrownEvent t)
  | .ok expected =>
    -- What the subject throws may be what is expected, so the strategy decides about it.
    let outcome ← c.outcome
    c.judge engine (.ofValue expected c.raise engine.schemas) outcome

end Check

end Attest
