import Attest.Assertion
import Attest.Definition
import Attest.Standard
/-!
# Sessions

A session keeps what a host sets up and collects over several steps: definitions, schemas,
whether differences are told, and the events so far. A step that fails leaves it as it was.
-/

namespace Attest

/-- What a host has set up and collected. -/
structure Session where
  scope : Scope := Scope.standard.withProbes
  /-- The schemas, once there are any. -/
  registry : Option Registry := none
  differences : Bool := false
  events : List Event := []

namespace Session

/-- The engine of a session. -/
def engine (s : Session) : Engine :=
  { Engine.basic s.differences with schemas := s.registry.map Registry.validator }

/-- Binds a name, and gives its value. -/
def define [PatternReader] [JsonReader] (s : Session) (name : String) (d : Definition) :
    Run EvalFault (Session × Value) := do
  let v ← d.value s.scope
  pure ({ s with scope := s.scope.bind name v }, v)

/-- Adds a schema. -/
def addSchema (s : Session) (name : String) (schema : Schema) : Session :=
  { s with registry := some ((s.registry.getD []).add name schema) }

/-- Adds events. -/
def emit (s : Session) (events : List Event) : Session := { s with events := s.events ++ events }

/-- Checks an assertion, and gives its events. -/
def check (s : Session) (a : Assertion) : Checking (Session × List Event) := do
  let events ← s.engine.check a s.scope
  pure (s.emit events, events)

/-- Elevates the events so far. -/
def elevated (s : Session) : Session := { s with events := elevate s.events }

end Session

end Attest
