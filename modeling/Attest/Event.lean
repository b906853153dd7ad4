import Attest.Difference
/-!
# Events

Every primitive check ends in one event: it passed, it failed, or it could not be decided
because something was thrown. A summary counts events by status.
-/

namespace Attest

/-- How a check ended. -/
inductive Status where
  | pass
  | fail
  /-- Something was thrown where nothing should be. -/
  | error
  deriving DecidableEq, Repr

/-- The word for a status. -/
def Status.name : Status → String
  | pass => "pass"
  | fail => "fail"
  | error => "error"

/-- The status that a word names. -/
def Status.ofName? (name : String) : Option Status :=
  [pass, fail, error].find? (·.name == name)

/-- What a check reports. -/
structure Event where
  status : Status
  /-- The text of what was expected. -/
  expected : String
  /-- The text of what was found. -/
  actual : String
  message : Option String := none
  difference : Option Difference := none
  deriving DecidableEq, Repr

/-- Whether the check passed. -/
def Event.isPass (e : Event) : Bool := e.status == .pass

/-- How many events there are of each status. -/
structure Summary where
  passed : Nat
  failed : Nat
  errored : Nat
  deriving DecidableEq, Repr

namespace Summary

/-- The summary of events. -/
def ofEvents (events : List Event) : Summary :=
  let count (s : Status) := events.countP fun e => e.status == s
  ⟨count .pass, count .fail, count .error⟩

/-- How many events were counted. -/
def total (s : Summary) : Nat := s.passed + s.failed + s.errored

/-- Whether nothing failed and nothing was thrown. -/
def isSuccess (s : Summary) : Bool := s.failed == 0 && s.errored == 0

end Summary

end Attest
