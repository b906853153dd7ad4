import Attest.Eval.Basic
import Attest.Event
/-!
# Checks

A check is one expected form for one subject: a form still to be evaluated, or an outcome
that is known. It carries the scope of its forms and what the author of the assertion chose.
Below the place of a check, its subject is computed at `Site.subject` and its expected form
evaluated at `Site.expected`; its parts are at `Site.part`.
-/

namespace Attest

namespace Site

/-- The place where the subject of a check is computed. -/
def subject (site : Site) : Site := site.at 0

/-- The place of the `i`-th part of a check. -/
def part (site : Site) (i : Nat) : Site := site.at (i + 1)

/-- The place where the expected form of a check is evaluated. -/
def expected (site : Site) : Site := site.at 1

/-- The place where a predicate is called, or a schema asked. -/
def decision (site : Site) : Site := site.at 2

/-- The place where a schema is asked for its reason. -/
def reason (site : Site) : Site := site.at 3

end Site

/-- What a check is about. -/
inductive Subject where
  | form (form : Form)
  | outcome (outcome : Outcome)

/-- An expected form and its subject. -/
structure Check where
  expected : Form
  subject : Subject
  scope : Scope
  /-- Whether a class of errors asks for an error to be thrown. -/
  raise : Bool := true
  /-- Stands for the expected form in events. -/
  label : Option String := none
  /-- Goes with every event. -/
  message : Option String := none
  site : Site

/-- A message with a further line about where a check comes from. -/
def withContext (message : Option String) (context : String) : Option String :=
  match message with
  | some message => some (message ++ "\n" ++ context)
  | none => some context

namespace Check

variable {ε : Type}

/-- The outcome of the subject. -/
def outcome (c : Check) : Run ε Outcome :=
  match c.subject with
  | .form form => Run.attempt (form.evalAt c.site.subject c.scope)
  | .outcome o => pure o

/-- The text of what is expected. -/
def expectedText (c : Check) : String := c.label.getD c.expected.render

/-- An event of a check. -/
def event (c : Check) (status : Status) (actual : String) : Event where
  status := status
  expected := c.expectedText
  actual := actual
  message := c.message

/-- The event of something thrown. -/
def thrownEvent (c : Check) (t : Thrown) : Event := c.event .error t.render

/-- The event of a comparison that holds or not. -/
def comparison (c : Check) (holds : Bool) (actual : String) : Event :=
  c.event (if holds then .pass else .fail) actual

/-- The `i`-th part of a check, about a subject of its own. A label describes the whole, so
parts have none. -/
def part (c : Check) (i : Nat) (expected : Form) (subject : Subject) : Check :=
  { c with expected, subject, label := none, site := c.site.part i }

end Check

end Attest
