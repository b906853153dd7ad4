import Attest.Assertion
import Attest.Proofs.Loop
/-!
# Who asks for an error to be thrown

A class of errors asks for an error to be thrown only where the flag of its check says so. The steps of a pipeline
put the flag down, and every check that is made of theirs copies it, so no check behind a step knows what the
assertion said. Where all expectations stand behind steps (`Plan.Piped`), the flag of an assertion changes nothing
(`Engine.checkAt_raise`); so it is for a pipeline, whatever the actual form goes through (`Engine.check_pipeline`).
-/

namespace Attest

theorem Form.evalAt_lit (v : Value) (site : Site) (scope : Scope) : (Form.lit v).evalAt site scope = pure v := rfl

/-- A check with another flag. -/
def Check.raising (c : Check) (r : Bool) : Check := { c with raise := r }

/-- Whether items run alike. -/
def Item.SameRun (engine : Engine) (i i' : Item) : Prop := i.run engine = i'.run engine

/-! ## Searches -/

namespace Search

variable {engine : Engine} {each : Check → Checking (List Event)} (r : Bool)

theorem eventsOf_raising (h : ∀ k : Check, each (k.raising r) = each k) (c : Check) (items : List Value) :
    eventsOf each (c.raising r) items = eventsOf each c items := by
  rw [eventsOf_eq_collect, eventsOf_eq_collect]
  exact Run.collect_congr fun v _ => h (element c v)

/-- What a map is compared with is a map, and no class. -/
theorem runEntries_raising (c : Check) (entries : List (Value × Value)) :
    runEntries (c.raising r) engine entries = runEntries c engine entries := by
  unfold runEntries
  refine bind_congr fun outcome => ?_
  rcases outcome with t | v
  · rfl
  · cases v with
    | map expected =>
      dsimp only
      unfold Check.run entriesCheck
      simp only [Form.evalAt_lit]
      rfl
    | _ => rfl

theorem run_raising (h : ∀ k : Check, each (k.raising r) = each k) (c : Check) :
    run (c.raising r) each engine = run c each engine := by
  unfold run
  refine bind_congr fun outcome => ?_
  cases outcome with
  | error t => rfl
  | ok collection =>
    refine bind_congr fun searched => ?_
    cases searched with
    | elements items =>
      dsimp only
      rw [eventsOf_raising r h]
    | entries under =>
      dsimp only
      rw [runEntries_raising]

end Search

namespace Plan

mutual

/-- Whether each expectation of a plan stands behind a step of a pipeline. -/
def Piped : Plan → Prop
  | primitive => False
  | malformed _ => True
  | conjunction parts => PipedParts parts
  | pipeline _ _ => True
  | destructure _ pairs => PipedPairs pairs
  | perElement _ _ next => next.Piped
  | contains _ next => next.Piped

/-- Whether each part of a conjunction has its expectations behind steps of pipelines. -/
def PipedParts : List (Form × Plan) → Prop
  | [] => True
  | (_, plan) :: rest => plan.Piped ∧ PipedParts rest

/-- Whether each pair of a destructuring has its expectations behind steps of pipelines. -/
def PipedPairs : List (Form × Form × Plan) → Prop
  | [] => True
  | (_, _, plan) :: rest => plan.Piped ∧ PipedPairs rest

end

/-! ## Expanding -/

/-- The check of a step is made without the flag of the pipeline. -/
theorem expandSteps_raising (steps : List (Form × Form × Plan)) (i : Nat) (c : Check) (r : Bool) (thread : Thread)
    (value : Value) : expandSteps steps i (c.raising r) thread value = expandSteps steps i c thread value := by
  induction steps generalizing i with
  | nil => rw [expandSteps, expandSteps]
  | cons step rest ih =>
    obtain ⟨expected, step, plan⟩ := step
    rw [expandSteps, expandSteps]
    simp only [ih]
    rfl

theorem sameRun_self (engine : Engine) (items : List Item) : List.Forall₂ (Item.SameRun engine) items items :=
  List.forall₂_same.2 fun _ _ => rfl

/-- Items that run alike make the same events. -/
theorem runAll_eq {engine : Engine} {is is' : List Item} (h : List.Forall₂ (Item.SameRun engine) is is') :
    Item.runAll engine is = Item.runAll engine is' := by
  induction h with
  | nil => rfl
  | cons hi _ ih =>
    rw [Item.runAll, Item.runAll, ih]
    congr 1

mutual

/-- Behind steps of pipelines nothing depends on the flag, so a plan makes items that run alike. -/
theorem expand_raising (engine : Engine) (r : Bool) : (plan : Plan) → plan.Piped → ∀ c : Check,
    Run.Rel (List.Forall₂ (Item.SameRun engine)) (plan.expand (c.raising r)) (plan.expand c)
  | .malformed d, _, c => by
    rw [expand, expand]
    exact .raise _ d
  | .conjunction parts, hp, c => by
    rw [expand, expand]
    exact Run.Rel.bind_same rfl fun outcome => expandParts_raising engine r parts hp 0 c outcome
  | .pipeline thread steps, _, c => by
    rw [expand, expand]
    refine Run.Rel.bind_same rfl fun outcome => ?_
    cases outcome with
    | error t => exact .pure (.cons rfl .nil)
    | ok value =>
      dsimp only
      rw [expandSteps_raising]
      exact .refl (sameRun_self engine) _
  | .destructure binding pairs, hp, c => by
    rw [expand, expand]
    refine Run.Rel.bind_same rfl fun outcome => ?_
    show Run.Rel _ (match outcome >>= fun value => binding.bind value c.scope with | .error t => _ | .ok scope => _)
      (match outcome >>= fun value => binding.bind value c.scope with | .error t => _ | .ok scope => _)
    cases outcome >>= fun value => binding.bind value c.scope with
    | error t => exact .pure (.cons rfl .nil)
    | ok scope => exact expandPairs_raising engine r pairs hp 0 { c with scope }
  | .perElement clauses body next, hp, c => by
    rw [expand, expand]
    refine Run.Rel.bind_same rfl fun outcome => ?_
    cases outcome with
    | error t => exact .pure (.cons rfl .nil)
    | ok iterations =>
      dsimp only
      rw [expandIterations_eq_collect, expandIterations_eq_collect]
      exact Run.collect_rel_same (fun i => expand_raising engine r next hp (iterationCheck c clauses body i)) _
  | .contains collection next, hp, c => by
    rw [expand, expand]
    refine .pure (.cons ?_ .nil)
    have heach : ∀ k : Check, (next.expand (k.raising r) >>= Item.runAll engine) =
        (next.expand k >>= Item.runAll engine) := by
      intro k
      refine Run.Rel.eq ((expand_raising engine r next hp k).bind fun is is' h => ?_)
      exact .of_eq (runAll_eq h)
    exact Search.run_raising r heach { c with subject := .form collection }

theorem expandParts_raising (engine : Engine) (r : Bool) : (parts : List (Form × Plan)) → PipedParts parts →
    ∀ (i : Nat) (c : Check) (outcome : Outcome), Run.Rel (List.Forall₂ (Item.SameRun engine))
      (expandParts parts i (c.raising r) outcome) (expandParts parts i c outcome)
  | [], _, i, c, outcome => by
    rw [expandParts, expandParts]
    exact .pure .nil
  | (expected, plan) :: rest, ⟨hp, hrest⟩, i, c, outcome => by
    rw [expandParts, expandParts]
    refine (expand_raising engine r plan hp (c.part i expected (.outcome outcome))).bind fun first first' hf => ?_
    refine (expandParts_raising engine r rest hrest (i + 1) c outcome).bind fun others others' ho => ?_
    exact .pure (List.rel_append hf ho)

theorem expandPairs_raising (engine : Engine) (r : Bool) : (pairs : List (Form × Form × Plan)) → PipedPairs pairs →
    ∀ (i : Nat) (c : Check), Run.Rel (List.Forall₂ (Item.SameRun engine))
      (expandPairs pairs i (c.raising r)) (expandPairs pairs i c)
  | [], _, i, c => by
    rw [expandPairs, expandPairs]
    exact .pure .nil
  | (expected, actual, plan) :: rest, ⟨hp, hrest⟩, i, c => by
    rw [expandPairs, expandPairs]
    refine (expand_raising engine r plan hp (c.part i expected (.form actual))).bind fun first first' hf => ?_
    refine (expandPairs_raising engine r rest hrest (i + 1) c).bind fun others others' ho => ?_
    exact .pure (List.rel_append hf ho)

end

/-! ## Which plans are piped -/

theorem piped_around {inner : Plan} (h : inner.Piped) (actual : Form) : (around inner actual).Piped := by
  induction hn : actual.nodes using Nat.strongRecOn generalizing actual with
  | ind n ih =>
    rw [around_eq]
    split
    · exact h
    · exact trivial
    · exact h
    · next hparse =>
      subst hn
      exact ih _ (Traversal.nodes_lt_of_perElement hparse) _ rfl

/-- A form that a pipeline leads is read as one, or is malformed. -/
theorem piped_ofExpected {form : Form} {thread : Thread} (h : form.head? = some thread.symbol) :
    (ofExpected form).Piped := by
  have hcombinator : form.combinator? = some thread.combinator := by
    rw [Form.combinator?, h]
    exact Combinator.ofSymbol?_symbol _
  have hparse : Grouping.parse form = Grouping.parsePipeline thread form := by
    rw [Grouping.parse, hcombinator]
    cases thread <;> rfl
  rw [ofExpected_eq, hparse]
  cases hpipeline : Grouping.parsePipeline thread form with
  | error d => exact trivial
  | ok g =>
    obtain ⟨pairs, -, rfl⟩ := Grouping.eq_pipeline_of_parsePipeline hpipeline
    exact trivial

end Plan

namespace Engine

theorem checkAt_raise {a : Assertion} (h : a.plan.Piped) (engine : Engine) (r : Bool) (site : Site) (scope : Scope) :
    engine.checkAt { a with raise := r } site scope = engine.checkAt a site scope := by
  refine Run.Rel.eq ((Plan.expand_raising engine r a.plan h (a.check site scope)).bind fun is is' hi => ?_)
  exact .of_eq (Plan.runAll_eq hi)

/-- An assertion whose expected form is a pipeline comes to the same events or the same defect, with the same
effects, whether or not it asks classes of errors for errors to be thrown. -/
theorem check_pipeline {a : Assertion} {thread : Thread} (h : a.expected.head? = some thread.symbol) (engine : Engine)
    (scope : Scope) (r r' : Bool) :
    engine.check { a with raise := r } scope = engine.check { a with raise := r' } scope := by
  have hplan : a.plan.Piped := Plan.piped_around (Plan.piped_ofExpected h) a.actual
  refine bind_congr fun site => ?_
  exact (checkAt_raise hplan engine r site scope).trans (checkAt_raise hplan engine r' site scope).symm

/-- `(expect (more-> ArithmeticError (/ 0)) (in [1 2]))`. -/
def zeroDivisors : Assertion where
  expected := .list [.sym "more->", .sym "ArithmeticError", .list [.sym "/", .lit (.int 0)]]
  actual := .list [.sym "in", .vector [.lit (.int 1), .lit (.int 2)]]

/-- Dividing by zero makes an error, which is an instance of its class, whether or not errors are asked for. -/
theorem check_zeroDivisors :
    let scope : Scope := [("ArithmeticError", .cls (.error .arithmetic)), ("/", .fn (.builtin .div))]
    zeroDivisors.expected.head? = some Thread.first.symbol ∧
      (Engine.check {} { zeroDivisors with raise := true } scope {}).1.toOption.map (List.map Event.status) =
        some [.pass, .pass] ∧
      Engine.check {} { zeroDivisors with raise := true } scope =
        Engine.check {} { zeroDivisors with raise := false } scope := by
  intro scope
  have hplan : zeroDivisors.plan = .contains (.vector [.lit (.int 1), .lit (.int 2)])
      (.pipeline .first [(.sym "ArithmeticError", .list [.sym "/", .lit (.int 0)], .primitive)]) := by
    show Plan.around (Plan.ofExpected zeroDivisors.expected) zeroDivisors.actual = _
    rw [Plan.around_eq, Plan.ofExpected_eq]
    show Plan.contains _ (Plan.pipeline .first
      [(.sym "ArithmeticError", .list [.sym "/", .lit (.int 0)], Plan.ofExpected (.sym "ArithmeticError"))]) = _
    rw [Plan.ofExpected_eq]
    rfl
  have hhead : zeroDivisors.expected.head? = some Thread.first.symbol := rfl
  refine ⟨hhead, ?_, check_pipeline hhead {} scope true false⟩
  show (Engine.checkAt {} zeroDivisors [0] scope { turns := 1 }).1.toOption.map (List.map Event.status) = _
  unfold Engine.checkAt Assertion.expandAt
  rw [hplan]
  decide +kernel

end Engine

end Attest
