import Attest.Assertion
import Attest.Report.Layout
/-!
# Expectations

An expectation is an assertion together with everything it needs to be decided. It can be
evaluated to a finding, or asked for its complaint: the text with which a test fails, if it
does. An assertion that could not be read is found out only then.
-/

namespace Attest

/-- An assertion, ready to be decided. -/
structure Expectation where
  assertion : Except ReadError Assertion
  scope : Scope
  engine : Engine := {}
  style : Style := {}
  /-- Whether at least one event is asked for. -/
  nonEmpty : Bool := false

/-- What became of an expectation. -/
structure Finding where
  passed : Bool
  description : String
  /-- Why it did not pass. -/
  reason : Option String
  events : List Event
  deriving DecidableEq, Repr

namespace Expectation

/-- An expectation with a further name bound. -/
def bind (x : Expectation) (name : String) (value : Value) : Expectation :=
  { x with scope := x.scope.bind name value }

/-- What is asserted, as text. -/
def description (x : Expectation) : String :=
  match x.assertion with
  | .ok a => a.render
  | .error _ => "(unreadable)"

/-- The events of the assertion. -/
def events (x : Expectation) : Checking (List Event) :=
  match x.assertion with
  | .ok a => x.engine.check a x.scope
  | .error e => Run.raise (.unreadable e)

/-- What the events amount to. -/
def finding (x : Expectation) (events : List Event) : Finding :=
  let passed := (Summary.ofEvents events).isSuccess
  if x.nonEmpty && events.isEmpty then
    ⟨false, x.description, some "no checks were run", events⟩
  else ⟨passed, x.description, if passed then none else some (x.style.report events), events⟩

/-- Decides an expectation. -/
def evaluate (x : Expectation) : Checking Finding := do
  return x.finding (← x.events)

/-- The text with which a test fails that asks the expectation to hold, if it does not. -/
def complaint? {ε : Type} (x : Expectation) : Run ε (Option String) := do
  match ← Run.attempt x.evaluate with
  | .ok f =>
    pure (if f.passed then none
      else some ("assertion failed: expected " ++ f.description ++ "\n\n" ++ f.reason.getD ""))
  | .error d =>
    pure (some ("invalid expectation " ++ x.description ++ ": " ++ d.message))

end Expectation

end Attest
