import Attest.Check.Basic
import Attest.Shape
/-!
# Going through collections

The clauses of a traversal are walked like nested loops: the later ones run within each
iteration of the earlier ones. Each iteration is a scope and the texts of what was bound in
it by going through a source. Below the place of a clause, its forms are evaluated at
`Site.subject` and the clauses after it walk at `Site.part`, in each iteration at the same
place: nothing that is made in one iteration can meet what is made in another.
-/

namespace Attest

/-- One way through the clauses of a traversal. -/
structure Iteration where
  scope : Scope
  /-- What was bound by going through sources, as text. -/
  bound : List String

namespace Traversal

/-- The place after so many clauses. -/
def siteAfter (site : Site) (clauses : List Clause) : Site :=
  clauses.foldl (fun s _ => s.part 0) site

/-- The elements of a source. -/
def sourceElements (source : Value) : Except Thrown (List Value) :=
  match source.elements? with
  | some elements => .ok elements
  | none =>
    .error (.argument
      ("from-each cannot iterate over " ++ source.typeName ++ ": " ++ source.render))

/-- The scope after bindings made one after the other, the `i`-th value evaluated at the
place `i`. -/
def bindAll (site : Site) : Nat → List (Binding × Form) → Scope → Eval Scope
  | _, [], scope => pure scope
  | i, (binding, form) :: rest, scope => do
    let value ← form.evalAt (site.at i) scope
    let scope ← Run.ofExcept (binding.bind value scope)
    bindAll site (i + 1) rest scope

/-- What each of several elements leads to, one after the other. -/
def forEach (go : Value → Eval (List Iteration)) : List Value → Eval (List Iteration)
  | [] => pure []
  | v :: vs => do
    let first ← go v
    let rest ← forEach go vs
    pure (first ++ rest)

/-- The iterations that clauses make, in order. -/
def walk : List Clause → Site → Scope → List String → Eval (List Iteration)
  | [], _, scope, bound => pure [⟨scope, bound⟩]
  | .each pattern binding source :: rest, site, scope, bound => do
    let collection ← source.evalAt site.subject scope
    let elements ← Run.ofExcept (sourceElements collection)
    forEach (fun v => do
      -- A pattern that does not fit its element is an error, and ends all iterations.
      let inner ← Run.ofExcept (binding.bind v scope)
      walk rest (site.part 0) inner (bound ++ [pattern.render ++ " " ++ v.render])) elements
  | .test form :: rest, site, scope, bound => do
    let answer ← form.evalAt site.subject scope
    if answer.isTruthy then walk rest (site.part 0) scope bound else pure []
  | .bind bindings :: rest, site, scope, bound => do
    let inner ← bindAll site.subject 0 bindings scope
    walk rest (site.part 0) inner bound

end Traversal

/-- The line that tells what was bound in an iteration. -/
def Iteration.context (i : Iteration) : String := "from-each [" ++ spaced i.bound ++ "]"

end Attest
