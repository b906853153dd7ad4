import Attest.Value.Basic
/-!
# Computations

A computation reads and changes the `Effects` that a host can watch, and ends with a
result, by throwing, or because it reached a limit (`Stop.exhausted`): of how deeply it may
nest, or of how large a list can be. Effects made before a computation stops remain. `attempt`
turns what was thrown into a value; a limit cannot be caught.
-/

namespace Attest

/-- What a host can watch of a computation. -/
structure Effects where
  /-- The calls of the functions that count theirs, by the places of these functions. -/
  calls : List Site := []
  /-- The lines noted, the first one first. -/
  log : List String := []
  /-- How many computations were started from outside. -/
  turns : Nat := 0

/-- What a computation cannot go beyond. -/
inductive Limit where
  /-- Evaluation nests as deeply as it may. -/
  | nesting
  /-- There is no room for a list of so many elements. -/
  | room (elements : Nat)
  deriving DecidableEq, Repr

/-- Why a computation ended without a result. -/
inductive Stop (ε : Type) where
  | thrown (e : ε)
  | exhausted (limit : Limit)

/-- A stop of a computation that throws nothing, where others may throw. -/
def Stop.widen {ε : Type} : Stop Empty → Stop ε
  | .exhausted limit => .exhausted limit

/-- A computation that may throw an `ε`. -/
abbrev Run (ε α : Type) := ExceptT (Stop ε) (StateM Effects) α

theorem Stop.widen_ne_thrown {ε : Type} {e : ε} : (stop : Stop Empty) → stop.widen ≠ .thrown e
  | .exhausted _ => nofun

/-- A computation of the evaluator. -/
abbrev Eval (α : Type) := Run Thrown α

namespace Run

variable {ε δ α : Type}

/-- Throws an error. -/
def raise (e : ε) : Run ε α := throw (.thrown e)

/-- Ends because a limit was reached. -/
def stop (limit : Limit) : Run ε α := throw (.exhausted limit)

/-- Ends because the limit of nesting was reached. -/
def exhausted : Run ε α := stop .nesting

/-- The computation that has no effect and ends as given. -/
def ofExcept : Except ε α → Run ε α
  | .ok a => pure a
  | .error e => raise e

/-- A computation whose errors are results. -/
def attempt (x : Run ε α) : Run δ (Except ε α) := fun s =>
  match x.run s with
  | (.ok a, s) => (.ok (.ok a), s)
  | (.error (.thrown e), s) => (.ok (.error e), s)
  | (.error (.exhausted limit), s) => (.error (.exhausted limit), s)

/-- A computation that throws nothing, where others may throw. -/
def widen (x : Run Empty α) : Run ε α := fun s =>
  match x.run s with
  | (.ok a, s) => (.ok a, s)
  | (.error e, s) => (.error e.widen, s)

/-- Notes a line. -/
def note (line : String) : Run ε Unit := modify fun s => { s with log := s.log ++ [line] }

/-- Counts one more call of the function at a place and gives its number. -/
def countCall (site : Site) : Run ε Nat :=
  modifyGet fun s => (s.calls.count site + 1, { s with calls := s.calls ++ [site] })

/-- A place for a computation started from outside, different from all earlier ones. -/
def newSite : Run ε Site := modifyGet fun s => ([s.turns], { s with turns := s.turns + 1 })

end Run

end Attest
