import Attest.Proofs.Search
/-!
# Checks over any evaluation

What checks and traversals do besides evaluating forms and calling values does not depend on how
that is done. Here it is an `Evaluation`, whichever: the computations of the program are those
over `Evaluation.standard` (`standard_run`, `standard_walk`, `standard_search`), and over one that
always comes to an end (`Evaluation.Total`) they come to an end, too.
-/

namespace Attest

/-- How forms are evaluated in a scope and values called, at a place. -/
structure Evaluation where
  form : Form → Site → Scope → Eval Value
  call : Value → Site → List Value → Eval Value

namespace Evaluation

/-- The evaluation of the language. -/
def standard : Evaluation where
  form := Form.evalAt
  call := Value.applyAt

variable (E : Evaluation)

/-! ## What is computed of a check -/

/-- The outcome of the subject of a check. -/
def outcome (c : Check) : Checking Outcome :=
  match c.subject with
  | .form form => Run.attempt (E.form form c.site.subject c.scope)
  | .outcome o => pure o

/-- The event of a call of a predicate. -/
def predicateEvent (c : Check) (f actual : Value) : Checking Event := do
  let call := "(" ++ c.expectedText ++ " " ++ actual.render ++ ")"
  match ← Run.attempt (E.call f c.site.decision [actual]) with
  | .ok answer =>
    pure (if answer.isTruthy then c.event .pass call else c.event .fail ("(not " ++ call ++ ")"))
  | .error t => pure (c.thrownEvent t)

/-- The event of a check once its strategy and the outcome of its subject are known. -/
def judge (c : Check) (engine : Engine) : Strategy → Outcome → Checking Event
  | .predicate f, .ok actual => E.predicateEvent c f actual
  | strategy, outcome => c.judge engine strategy outcome

/-- The event of a check. -/
def run (c : Check) (engine : Engine) : Checking Event := do
  match ← Run.attempt (E.form c.expected c.site.expected c.scope) with
  | .error t => pure (c.thrownEvent t)
  | .ok expected =>
    let outcome ← E.outcome c
    E.judge c engine (.ofValue expected c.raise engine.schemas) outcome

/-- The event of the search of a map. -/
def runEntries (c : Check) (engine : Engine) (entries : List (Value × Value)) : Checking Event := do
  match ← Run.attempt (E.form c.expected c.site.expected c.scope) with
  | .error t => pure (c.thrownEvent t)
  | .ok (.map expected) => E.run (Search.entriesCheck c expected entries) engine
  | .ok other => Run.raise (.notAMap other)

/-- The events of a search. -/
def search (c : Check) (each : Check → Checking (List Event)) (engine : Engine) : Checking (List Event) := do
  match ← E.outcome c with
  | .error t => pure [c.thrownEvent t]
  | .ok collection =>
    match ← Run.ofExcept (Searched.ofValue collection) with
    | .elements items => return elevate (← Search.eventsOf each c items)
    | .entries under => return [← E.runEntries c engine under]

/-- What the `i`-th step of a pipeline makes of a value. -/
def stepValue (c : Check) (i : Nat) (thread : Thread) (step : Form) (value : Value) : Checking Value := do
  match ← Run.attempt (E.form (Plan.stepForm thread step value) (c.site.part i).subject c.scope) with
  | .ok v => pure v
  | .error t => pure (.error t)

/-- The scope after the bindings of a clause. -/
def bindAll (site : Site) : Nat → List (Binding × Form) → Scope → Eval Scope
  | _, [], scope => pure scope
  | i, (binding, form) :: rest, scope => do
    let value ← E.form form (site.at i) scope
    let scope ← Run.ofExcept (binding.bind value scope)
    bindAll site (i + 1) rest scope

/-- The iterations of clauses. -/
def walk : List Clause → Site → Scope → List String → Eval (List Iteration)
  | [], _, scope, bound => pure [⟨scope, bound⟩]
  | .each pattern binding source :: rest, site, scope, bound => do
    let collection ← E.form source site.subject scope
    let elements ← Run.ofExcept (Traversal.sourceElements collection)
    Traversal.forEach (fun v => do
      let inner ← Run.ofExcept (binding.bind v scope)
      walk rest (site.part 0) inner (bound ++ [pattern.render ++ " " ++ v.render])) elements
  | .test form :: rest, site, scope, bound => do
    let answer ← E.form form site.subject scope
    if answer.isTruthy then walk rest (site.part 0) scope bound else pure []
  | .bind bindings :: rest, site, scope, bound => do
    let inner ← E.bindAll site.subject 0 bindings scope
    walk rest (site.part 0) inner bound

end Evaluation

/-! ## The program is what is computed over the standard evaluation -/

namespace Evaluation

theorem standard_outcome (c : Check) : standard.outcome c = c.outcome := rfl

theorem standard_run (c : Check) (engine : Engine) : standard.run c engine = c.run engine := by
  have hjudge : ∀ strategy outcome, standard.judge c engine strategy outcome = c.judge engine strategy outcome := by
    intro strategy outcome
    cases strategy <;> cases outcome <;> rfl
  refine bind_congr fun expected => ?_
  cases expected with
  | error t => rfl
  | ok expected => exact bind_congr fun o => hjudge _ o

theorem standard_runEntries (c : Check) (engine : Engine) (entries : List (Value × Value)) :
    standard.runEntries c engine entries = Search.runEntries c engine entries := by
  refine bind_congr fun expected => ?_
  cases expected with
  | error t => rfl
  | ok expected =>
    cases expected with
    | map under => exact standard_run _ engine
    | _ => rfl

theorem standard_bindAll (site : Site) (i : Nat) (bindings : List (Binding × Form)) (scope : Scope) :
    standard.bindAll site i bindings scope = Traversal.bindAll site i bindings scope := by
  induction bindings generalizing i scope with
  | nil => rfl
  | cons p rest ih => exact bind_congr fun value => bind_congr fun inner => ih (i + 1) inner

theorem standard_walk (clauses : List Clause) (site : Site) (scope : Scope) (bound : List String) :
    standard.walk clauses site scope bound = Traversal.walk clauses site scope bound := by
  induction clauses generalizing site scope bound with
  | nil => rfl
  | cons clause rest ih =>
    cases clause with
    | each pattern binding source =>
      refine bind_congr fun collection => bind_congr fun elements => ?_
      rw [Traversal.forEach_eq_collect, Traversal.forEach_eq_collect]
      exact Run.collect_congr fun v _ => bind_congr fun inner => ih _ inner _
    | test form =>
      refine bind_congr fun answer => ?_
      rw [ih]
    | bind bindings =>
      show standard.bindAll site.subject 0 bindings scope >>= _ = _
      rw [standard_bindAll]
      exact bind_congr fun inner => ih _ inner bound

/-- Of the check of an element, a search only uses what it says of the elements. -/
theorem standard_search {each each' : Check → Checking (List Event)} (c : Check) (engine : Engine)
    (h : ∀ v, each (Search.element c v) = each' (Search.element c v)) :
    standard.search c each engine = Search.run c each' engine := by
  have hevents : ∀ items, Search.eventsOf each c items = Search.eventsOf each' c items := by
    intro items
    rw [Search.eventsOf_eq_collect, Search.eventsOf_eq_collect]
    exact Run.collect_congr fun v _ => h v
  unfold search Search.run
  rw [standard_outcome]
  refine bind_congr fun o => ?_
  cases o with
  | error t => rfl
  | ok collection =>
    refine bind_congr fun searched => ?_
    cases searched with
    | elements items => exact congrArg (· >>= fun events => pure (elevate events)) (hevents items)
    | entries under => exact congrArg (· >>= fun e => pure [e]) (standard_runEntries c engine under)

end Evaluation

/-! ## Over evaluations that come to an end -/

/-- Every form that is evaluated and every value that is called gives a result or throws. -/
structure Evaluation.Total (E : Evaluation) : Prop where
  form : ∀ form site scope, (E.form form site scope).Total
  call : ∀ f site args, (E.call f site args).Total

/-- Every question to a schema is answered. -/
structure Validator.Total (v : Validator) : Prop where
  validate : ∀ site name value, (v.validate site name value).Total
  explain : ∀ site name value, (v.explain site name value).Total

/-- An engine that asks no one about schemas, or someone who answers. -/
def Engine.Total (engine : Engine) : Prop := ∀ v, engine.schemas = some v → v.Total

theorem Check.schemaEvent_total (c : Check) {validator : Validator} (h : validator.Total) (name : String)
    (actual : Value) : (c.schemaEvent validator name actual : Checking Event).Total := by
  unfold schemaEvent
  refine (h.validate _ _ _).widen.bind fun accepted _ => ?_
  cases accepted with
  | true => exact .pure trivial
  | false => exact (h.explain _ _ _).widen.bind fun reason _ => .pure trivial

namespace Evaluation.Total

variable {E : Evaluation} {engine : Engine}

theorem outcome (h : E.Total) (c : Check) : (E.outcome c).Total := by
  unfold Evaluation.outcome
  cases c.subject with
  | form form => exact (h.form _ _ _).attempt
  | outcome o => exact .pure trivial

theorem predicateEvent (h : E.Total) (c : Check) (f actual : Value) :
    (E.predicateEvent c f actual).Total := by
  unfold Evaluation.predicateEvent
  refine (h.call _ _ _).attempt.bind fun answer _ => ?_
  cases answer <;> exact .pure trivial

theorem judge (h : E.Total) (hengine : engine.Total) (c : Check) (expected : Value) (o : Outcome) :
    (E.judge c engine (.ofValue expected c.raise engine.schemas) o).Total := by
  cases hstrategy : Strategy.ofValue expected c.raise engine.schemas with
  | predicate f =>
    cases o with
    | ok actual => exact h.predicateEvent c f actual
    | error t => exact .pure trivial
  | schema name validator =>
    cases o with
    | ok actual => exact c.schemaEvent_total (hengine validator (Strategy.schemas_of_schema hstrategy)) name actual
    | error t => exact .pure trivial
  | throws _ | instances _ | pattern _ | equal _ => cases o <;> exact .pure trivial

theorem run (h : E.Total) (hengine : engine.Total) (c : Check) : (E.run c engine).Total := by
  unfold Evaluation.run
  refine (h.form _ _ _).attempt.bind fun expected _ => ?_
  cases expected with
  | error t => exact .pure trivial
  | ok expected => exact (h.outcome c).bind fun o _ => h.judge hengine c expected o

theorem runEntries (h : E.Total) (hengine : engine.Total) (c : Check) (entries : List (Value × Value)) :
    (E.runEntries c engine entries).Total := by
  unfold Evaluation.runEntries
  refine (h.form _ _ _).attempt.bind fun expected _ => ?_
  split
  · exact .pure trivial
  · exact h.run hengine _
  · exact .raise _

/-- A search comes to an end if the checks of the elements do. -/
theorem search (h : E.Total) (hengine : engine.Total) {c : Check} {each : Check → Checking (List Event)}
    (heach : ∀ v, (each (Search.element c v)).Total) :
    (E.search c each engine).Total := by
  unfold Evaluation.search
  refine (h.outcome c).bind fun o _ => ?_
  cases o with
  | error t => exact .pure trivial
  | ok collection =>
    refine (Run.Concludes.ofExcept _).bind fun searched _ => ?_
    cases searched with
    | elements items =>
      simp only [Search.eventsOf_eq_collect]
      exact (Run.collect_total fun v _ => heach v).bind fun events _ => .pure trivial
    | entries under => exact (h.runEntries hengine c under).bind fun e _ => .pure trivial

theorem stepValue (h : E.Total) (c : Check) (i : Nat) (thread : Thread) (step : Form) (value : Value) :
    (E.stepValue c i thread step value).Total := by
  unfold Evaluation.stepValue
  refine (h.form _ _ _).attempt.bind fun made _ => ?_
  cases made <;> exact .pure trivial

theorem bindAll (h : E.Total) (site : Site) (i : Nat) (bindings : List (Binding × Form)) (scope : Scope) :
    (E.bindAll site i bindings scope).Total := by
  induction bindings generalizing i scope with
  | nil => exact .pure trivial
  | cons p rest ih =>
    refine (h.form _ _ _).bind fun value _ => ?_
    exact (Run.Concludes.ofExcept _).bind fun inner _ => ih (i + 1) inner

theorem walk (h : E.Total) (clauses : List Clause) (site : Site) (scope : Scope) (bound : List String) :
    (E.walk clauses site scope bound).Total := by
  induction clauses generalizing site scope bound with
  | nil => exact .pure trivial
  | cons clause rest ih =>
    cases clause with
    | each pattern binding source =>
      refine (h.form _ _ _).bind fun collection _ => (Run.Concludes.ofExcept _).bind fun elements _ => ?_
      rw [Traversal.forEach_eq_collect]
      refine Run.collect_total fun v _ => ?_
      exact (Run.Concludes.ofExcept _).bind fun inner _ => ih _ inner _
    | test form =>
      refine (h.form _ _ _).bind fun answer _ => ?_
      split
      · exact ih _ scope bound
      · exact .pure trivial
    | bind bindings => exact (h.bindAll _ _ bindings scope).bind fun inner _ => ih _ inner bound

end Evaluation.Total

end Attest
