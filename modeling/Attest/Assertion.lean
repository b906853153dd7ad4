import Attest.Expansion
/-!
# Assertions

An assertion pairs an expected form with an actual one. Running it expands its plan first,
then runs every item; an assertion with a defect has no events.
-/

namespace Attest

/-- An expected form and an actual one, and what their author chose. -/
structure Assertion where
  expected : Form
  actual : Form
  raise : Bool := true
  label : Option String := none
  message : Option String := none

namespace Assertion

/-- The text of an assertion. -/
def render (a : Assertion) : String := "(expect " ++ a.expected.render ++ " " ++ a.actual.render ++ ")"

/-- The assertion written as two texts. -/
def read [PatternReader] (expected actual : String) : Except ReadError Assertion := do
  let e ← Form.read expected
  let a ← Form.read actual
  pure { expected := e, actual := a }

/-- The plan of an assertion. -/
def plan (a : Assertion) : Plan := .ofForms a.expected a.actual

/-- The check that an assertion asks for. -/
def check (a : Assertion) (site : Site) (scope : Scope) : Check where
  expected := a.expected
  subject := .form a.actual
  scope := scope
  raise := a.raise
  label := a.label
  message := a.message
  site := site

/-- The items of an assertion at a place. -/
def expandAt (a : Assertion) (site : Site) (scope : Scope) : Checking (List Item) :=
  a.plan.expand (a.check site scope)

/-- The items of an assertion. -/
def expand (a : Assertion) (scope : Scope) : Checking (List Item) := do
  a.expandAt (← Run.newSite) scope

end Assertion

namespace Engine

/-- The events of an assertion at a place. -/
def checkAt (engine : Engine) (a : Assertion) (site : Site) (scope : Scope) :
    Checking (List Event) := do
  let items ← a.expandAt site scope
  Item.runAll engine items

/-- The events of an assertion. -/
def check (engine : Engine) (a : Assertion) (scope : Scope) : Checking (List Event) := do
  engine.checkAt a (← Run.newSite) scope

end Engine

end Attest
