import Attest.Item
import Attest.Plan
import Attest.Traversal
/-!
# Expansion

A plan is expanded for a check into items. Expanding computes what combinators need: the
value that a grouping is about, the steps of a pipeline, the sources of a traversal. The
subject of a single expectation is left to its check.
-/

namespace Attest

namespace Plan

/-- A step of a pipeline is computed with the value put into it; a threading form gets it
first in any case. -/
def stepForm (thread : Thread) (step : Form) (value : Value) : Form :=
  threadStep step value (thread == .last && !step.head?.any isThreading)

/-- What the `i`-th step of a pipeline makes of a value; an error that is thrown is a value,
too. -/
def stepValue (c : Check) (i : Nat) (thread : Thread) (step : Form) (value : Value) :
    Checking Value := do
  match ← Run.attempt ((stepForm thread step value).evalAt (c.site.part i).subject c.scope) with
  | .ok v => pure v
  | .error t => pure (.error t)

/-- The check of a step of a pipeline. Classes of errors are classes of values there. -/
def stepCheck (c : Check) (i : Nat) (thread : Thread) (expected step : Form) (value : Value) :
    Check :=
  { c.part i expected (.outcome (.ok value)) with
    raise := false
    message := withContext c.message (thread.symbol ++ " " ++ step.render) }

/-- The check of an iteration. It keeps the label, since it is about the same expected
form. -/
def iterationCheck (c : Check) (clauses : List Clause) (body : Form) (i : Iteration) : Check :=
  { c with
    subject := .form body
    scope := i.scope
    message := withContext c.message i.context
    site := Traversal.siteAfter c.site clauses }

/-- The items of all iterations, in order. -/
def expandIterations (expand : Iteration → Checking (List Item)) :
    List Iteration → Checking (List Item)
  | [] => pure []
  | i :: rest => do
    let first ← expand i
    let others ← expandIterations expand rest
    pure (first ++ others)

mutual

/-- The items of a check. -/
def expand : Plan → Check → Checking (List Item)
  | primitive, c => pure [.check c]
  | malformed d, _ => Run.raise d
  | conjunction parts, c => do
    let outcome ← c.outcome
    expandParts parts 0 c outcome
  | pipeline thread steps, c => do
    match ← c.outcome with
    | .error t => pure [.broken (c.thrownEvent t)]
    | .ok value => expandSteps steps 0 c thread value
  | destructure binding pairs, c => do
    match (← c.outcome) >>= fun value => binding.bind value c.scope with
    | .error t => pure [.broken (c.thrownEvent t)]
    | .ok scope => expandPairs pairs 0 { c with scope }
  | perElement clauses body next, c => do
    match ← Run.attempt (Traversal.walk clauses c.site c.scope []) with
    | .error t => pure [.broken (c.thrownEvent t)]
    | .ok iterations =>
      expandIterations (fun i => next.expand (iterationCheck c clauses body i)) iterations
  | contains collection next, c =>
    pure [.search { c with subject := .form collection } fun engine element => do
      let items ← next.expand element
      Item.runAll engine items]

/-- The items of the parts of a conjunction, all about one outcome. -/
def expandParts : List (Form × Plan) → Nat → Check → Outcome → Checking (List Item)
  | [], _, _, _ => pure []
  | (expected, plan) :: rest, i, c, outcome => do
    let first ← plan.expand (c.part i expected (.outcome outcome))
    let others ← expandParts rest (i + 1) c outcome
    pure (first ++ others)

/-- The items of the steps of a pipeline; each step is computed right before its items are
made. -/
def expandSteps :
    List (Form × Form × Plan) → Nat → Check → Thread → Value → Checking (List Item)
  | [], _, _, _, _ => pure []
  | (expected, step, plan) :: rest, i, c, thread, value => do
    let made ← stepValue c i thread step value
    let first ← plan.expand (stepCheck c i thread expected step made)
    let others ← expandSteps rest (i + 1) c thread value
    pure (first ++ others)

/-- The items of the pairs of a destructuring. -/
def expandPairs : List (Form × Form × Plan) → Nat → Check → Checking (List Item)
  | [], _, _ => pure []
  | (expected, actual, plan) :: rest, i, c => do
    let first ← plan.expand (c.part i expected (.form actual))
    let others ← expandPairs rest (i + 1) c
    pure (first ++ others)

end

end Plan

end Attest
