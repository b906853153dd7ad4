import Attest.Proofs.Evaluation
/-!
# How deeply checks nest

`Evaluation.expand` expands a check by what its own two forms are: each part of it is a check that
is expanded in a call within, as is each element of a collection once its search runs. A limit
says how many calls may be open at once. As many as the two forms have nodes are enough
(`Evaluation.expand_within_nodes`): a part has fewer nodes than what it is a part of, an iteration
keeps the expected form for a smaller actual one, and the check of an element has no actual form
at all.
-/

namespace Attest

/-! ## The plan and the size of a check -/

namespace Check

/-- The form of the subject, unless it has been computed. -/
def form? (c : Check) : Option Form :=
  match c.subject with
  | .form form => some form
  | .outcome _ => none

/-- The plan of a check. -/
def plan (c : Check) : Plan :=
  match c.form? with
  | some actual => .ofForms c.expected actual
  | none => .ofExpected c.expected

/-- The number of nodes of the forms of a check. -/
def nodes (c : Check) : Nat := c.expected.nodes + c.form?.elim 0 Form.nodes

end Check

namespace Shape

variable {e : Form} {a? : Option Form}

theorem parse_of_none (h : a?.bind Traversal.parse? = none) : parse e a? = (Grouping.parse e).map grouping := by
  unfold parse
  rw [h]

theorem parse_of_some {r : Except Defect Traversal} (h : a?.bind Traversal.parse? = some r) :
    parse e a? = r.map traversal := by
  unfold parse
  rw [h]

/-- A grouping is what the expected form was read as. -/
theorem grouping_of_parse {g : Grouping} (h : parse e a? = .ok (.grouping g)) : Grouping.parse e = .ok g := by
  cases hr : a?.bind Traversal.parse? with
  | some r =>
    rw [parse_of_some hr] at h
    cases r <;> cases h
  | none =>
    rw [parse_of_none hr] at h
    cases hg : Grouping.parse e with
    | error d => rw [hg] at h; cases h
    | ok g' => rw [hg] at h; cases h; rfl

/-- A traversal is what the actual form was read as. -/
theorem traversal_of_parse {t : Traversal} (h : parse e a? = .ok (.traversal t)) :
    ∃ a, a? = some a ∧ Traversal.parse? a = some (.ok t) := by
  cases hr : a?.bind Traversal.parse? with
  | some r =>
    rw [parse_of_some hr] at h
    obtain ⟨a, rfl, ha⟩ := Option.bind_eq_some_iff.1 hr
    cases r with
    | error d => cases h
    | ok t' => cases h; exact ⟨a, rfl, ha⟩
  | none =>
    rw [parse_of_none hr] at h
    cases hg : Grouping.parse e with
    | error d => rw [hg] at h; cases h
    | ok g => rw [hg] at h; cases h

end Shape

/-- The plan of a shape for an expected form. -/
def Plan.ofShape (expected : Form) : Except Defect Shape → Plan
  | .error d => .malformed d
  | .ok (.grouping .primitive) => .primitive
  | .ok (.grouping (.conjunction es)) => .conjunction (es.map fun e => (e, .ofExpected e))
  | .ok (.grouping (.pipeline thread pairs)) =>
    .pipeline thread (pairs.map fun (check, step) => (check, step, .ofExpected check))
  | .ok (.grouping (.destructure binding pairs)) =>
    .destructure binding (pairs.map fun (e, a) => (e, a, .ofForms e a))
  | .ok (.traversal (.perElement clauses body)) => .perElement clauses body (.ofForms expected body)
  | .ok (.traversal (.contains collection)) => .contains collection (.ofExpected expected)

theorem Plan.ofExpected_eq_ofShape (e : Form) : ofExpected e = ofShape e ((Grouping.parse e).map .grouping) := by
  rw [ofExpected_eq]
  rcases Grouping.parse e with d | g
  · rfl
  · cases g <;> rfl

/-- One step of the plan of a check. -/
theorem Check.plan_eq (c : Check) : c.plan = .ofShape c.expected (Shape.parse c.expected c.form?) := by
  unfold plan
  cases c.form? with
  | none =>
    rw [Shape.parse_of_none rfl]
    exact Plan.ofExpected_eq_ofShape c.expected
  | some a =>
    simp only [Plan.ofForms]
    rw [Plan.around_eq]
    cases ha : Traversal.parse? a with
    | none =>
      rw [Shape.parse_of_none (show (some a).bind _ = none from ha)]
      exact Plan.ofExpected_eq_ofShape c.expected
    | some r =>
      rw [Shape.parse_of_some (show (some a).bind _ = some r from ha)]
      rcases r with d | t
      · rfl
      · cases t <;> rfl

namespace Check

variable {c : Check}

/-! ### What is expanded within has fewer nodes -/

theorem nodes_part_of_conjunction {es : List Form} {e : Form}
    (h : Shape.parse c.expected c.form? = .ok (.grouping (.conjunction es))) (he : e ∈ es) (i : Nat) (o : Outcome) :
    (c.part i e (.outcome o)).nodes < c.nodes := by
  have hlt := Grouping.nodes_lt_of_conjunction (Shape.grouping_of_parse h) he
  show e.nodes + 0 < c.expected.nodes + _
  omega

theorem nodes_stepCheck {thread : Thread} {pairs : List (Form × Form)} {e step : Form}
    (h : Shape.parse c.expected c.form? = .ok (.grouping (.pipeline thread pairs))) (hp : (e, step) ∈ pairs)
    (i : Nat) (value : Value) : (Plan.stepCheck c i thread e step value).nodes < c.nodes := by
  have hlt := Grouping.nodes_lt_of_pipeline (Shape.grouping_of_parse h) hp
  show e.nodes + 0 < c.expected.nodes + _
  omega

theorem nodes_part_of_destructure {binding : Binding} {pairs : List (Form × Form)} {e a : Form}
    (h : Shape.parse c.expected c.form? = .ok (.grouping (.destructure binding pairs))) (hp : (e, a) ∈ pairs)
    (i : Nat) (scope : Scope) : ({ c with scope }.part i e (.form a)).nodes < c.nodes := by
  have hlt := Grouping.nodes_lt_of_destructure (Shape.grouping_of_parse h) hp
  show e.nodes + a.nodes < c.expected.nodes + _
  omega

theorem nodes_iterationCheck {clauses : List Clause} {body : Form}
    (h : Shape.parse c.expected c.form? = .ok (.traversal (.perElement clauses body))) (i : Iteration) :
    (Plan.iterationCheck c clauses body i).nodes < c.nodes := by
  obtain ⟨a, ha, hparse⟩ := Shape.traversal_of_parse h
  have hlt := Traversal.nodes_lt_of_perElement hparse
  unfold nodes
  rw [ha]
  show c.expected.nodes + body.nodes < c.expected.nodes + a.nodes
  omega

theorem nodes_element {collection : Form}
    (h : Shape.parse c.expected c.form? = .ok (.traversal (.contains collection))) (v : Value) :
    (Search.element { c with subject := .form collection } v).nodes < c.nodes := by
  obtain ⟨a, ha, -⟩ := Shape.traversal_of_parse h
  have hpos := a.nodes_pos
  unfold nodes
  rw [ha]
  show c.expected.nodes + 0 < c.expected.nodes + a.nodes
  omega

end Check

/-! ## Items in order -/

namespace Plan

theorem expandParts_eq_collect (plan : Form → Plan) (es : List Form) (i : Nat) (c : Check) (o : Outcome) :
    expandParts (es.map fun e => (e, plan e)) i c o =
      Run.collect (fun (e, i) => (plan e).expand (c.part i e (.outcome o))) (es.zipIdx i) := by
  induction es generalizing i with
  | nil => rfl
  | cons e es ih =>
    simp only [List.map_cons, expandParts, ih, List.zipIdx_cons, Run.collect]

theorem expandSteps_eq_collect (plan : Form → Plan) (pairs : List (Form × Form)) (i : Nat) (c : Check)
    (thread : Thread) (value : Value) :
    expandSteps (pairs.map fun (e, step) => (e, step, plan e)) i c thread value =
      Run.collect (fun ((e, step), i) => do
        let made ← stepValue c i thread step value
        (plan e).expand (stepCheck c i thread e step made)) (pairs.zipIdx i) := by
  induction pairs generalizing i with
  | nil => rfl
  | cons p pairs ih =>
    simp only [List.map_cons, expandSteps, ih, List.zipIdx_cons, Run.collect, bind_assoc]

theorem expandPairs_eq_collect (plan : Form → Form → Plan) (pairs : List (Form × Form)) (i : Nat) (c : Check) :
    expandPairs (pairs.map fun (e, a) => (e, a, plan e a)) i c =
      Run.collect (fun ((e, a), i) => (plan e a).expand (c.part i e (.form a))) (pairs.zipIdx i) := by
  induction pairs generalizing i with
  | nil => rfl
  | cons p pairs ih =>
    simp only [List.map_cons, expandPairs, ih, List.zipIdx_cons, Run.collect]

end Plan

/-! ## Expanding within a limit -/

namespace Evaluation

/-- The events that the items of a check come to, each computed when it is run. No more calls than
the limit are open at once, the call for this check and those within it; `beyond` stands for a
call that would be one too many. -/
def expand (E : Evaluation) (engine : Engine) (beyond : Check → Checking (List (Checking (List Event)))) :
    Nat → Check → Checking (List (Checking (List Event)))
  | 0, c => beyond c
  | limit + 1, c =>
    match Shape.parse c.expected c.form? with
    | .error d => Run.raise d
    | .ok (.grouping .primitive) => pure [do return [← E.run c engine]]
    | .ok (.grouping (.conjunction es)) => do
      let outcome ← E.outcome c
      Run.collect (fun (e, i) => E.expand engine beyond limit (c.part i e (.outcome outcome))) es.zipIdx
    | .ok (.grouping (.pipeline thread pairs)) => do
      match ← E.outcome c with
      | .error t => pure [pure [c.thrownEvent t]]
      | .ok value =>
        Run.collect (fun ((e, step), i) => do
          let made ← E.stepValue c i thread step value
          E.expand engine beyond limit (Plan.stepCheck c i thread e step made)) pairs.zipIdx
    | .ok (.grouping (.destructure binding pairs)) => do
      match (← E.outcome c) >>= fun value => binding.bind value c.scope with
      | .error t => pure [pure [c.thrownEvent t]]
      | .ok scope =>
        Run.collect (fun ((e, a), i) => E.expand engine beyond limit ({ c with scope }.part i e (.form a)))
          pairs.zipIdx
    | .ok (.traversal (.perElement clauses body)) => do
      match ← Run.attempt (E.walk clauses c.site c.scope []) with
      | .error t => pure [pure [c.thrownEvent t]]
      | .ok iterations =>
        Run.collect (fun i => E.expand engine beyond limit (Plan.iterationCheck c clauses body i)) iterations
    | .ok (.traversal (.contains collection)) =>
      -- The call for an element is within the one that made the item, even if it comes later.
      pure [E.search { c with subject := .form collection } (fun element => do
        Run.collect id (← E.expand engine beyond limit element)) engine]

variable {E : Evaluation} {engine : Engine} {beyond : Check → Checking (List (Checking (List Event)))}
  {limit : Nat} {c : Check}

/-- Over an evaluation that comes to an end, so do expanding a check and running its items. -/
theorem expand_concludes (hE : E.Total) (hengine : engine.Total) (h : c.nodes ≤ limit) :
    (E.expand engine beyond limit c).Concludes fun runs => ∀ run ∈ runs, run.Total := by
  have hsingle : ∀ {run : Checking (List Event)}, run.Total →
      (pure [run] : Checking (List (Checking (List Event)))).Concludes fun runs =>
        ∀ run ∈ runs, run.Total := by
    intro run hrun
    refine .pure fun run' hmem => ?_
    rw [List.mem_singleton.1 hmem]
    exact hrun
  induction limit generalizing c with
  | zero =>
    have hpos := c.expected.nodes_pos
    unfold Check.nodes at h
    omega
  | succ limit ih =>
    have hwithin : ∀ {c' : Check}, c'.nodes < c.nodes → c'.nodes ≤ limit := fun hlt => by omega
    unfold expand
    split
    · exact .raise _
    · exact hsingle ((hE.run hengine c).bind fun e _ => .pure trivial)
    · rename_i es hshape
      refine (hE.outcome c).bind fun o _ => Run.collect_concludes fun p hmem => ?_
      obtain ⟨e, i⟩ := p
      exact ih (hwithin (Check.nodes_part_of_conjunction hshape (List.fst_mem_of_mem_zipIdx hmem) i o))
    · rename_i thread pairs hshape
      refine (hE.outcome c).bind fun o _ => ?_
      cases o with
      | error t => exact hsingle (.pure trivial)
      | ok value =>
        refine Run.collect_concludes fun p hmem => ?_
        obtain ⟨⟨e, step⟩, i⟩ := p
        refine (hE.stepValue c i thread step value).bind fun made _ => ?_
        exact ih (hwithin (Check.nodes_stepCheck hshape (List.fst_mem_of_mem_zipIdx hmem) i made))
    · rename_i binding pairs hshape
      refine (hE.outcome c).bind fun o _ => ?_
      split
      · exact hsingle (.pure trivial)
      · rename_i scope _
        refine Run.collect_concludes fun p hmem => ?_
        obtain ⟨⟨e, a⟩, i⟩ := p
        exact ih (hwithin (Check.nodes_part_of_destructure hshape (List.fst_mem_of_mem_zipIdx hmem) i scope))
    · rename_i clauses body hshape
      refine (hE.walk clauses c.site c.scope []).attempt.bind fun walked _ => ?_
      cases walked with
      | error t => exact hsingle (.pure trivial)
      | ok iterations => exact Run.collect_concludes fun i _ => ih (hwithin (Check.nodes_iterationCheck hshape i))
    · rename_i collection hshape
      refine hsingle (hE.search hengine fun v => ?_)
      refine (ih (hwithin (Check.nodes_element hshape v))).bind fun runs hruns => ?_
      exact Run.collect_total hruns

/-- Over the standard evaluation, the limit makes no difference to the program. -/
theorem standard_expand (h : c.nodes ≤ limit) :
    standard.expand engine beyond limit c = List.map (Item.run engine) <$> c.plan.expand c := by
  induction limit generalizing c with
  | zero =>
    have hpos := c.expected.nodes_pos
    unfold Check.nodes at h
    omega
  | succ limit ih =>
    have hwithin : ∀ {c' : Check}, c'.nodes < c.nodes → c'.nodes ≤ limit := fun hlt => by omega
    rw [Check.plan_eq]
    unfold expand Plan.ofShape
    split
    · rfl
    · rw [standard_run]
      rfl
    · rename_i es hshape
      simp only [Plan.expand, map_bind, standard_outcome, Plan.expandParts_eq_collect, Run.map_collect]
      refine bind_congr fun o => Run.collect_congr fun p hmem => ?_
      obtain ⟨e, i⟩ := p
      exact ih (hwithin (Check.nodes_part_of_conjunction hshape (List.fst_mem_of_mem_zipIdx hmem) i o))
    · rename_i thread pairs hshape
      simp only [Plan.expand, map_bind, standard_outcome]
      refine bind_congr fun o => ?_
      cases o with
      | error t => rfl
      | ok value =>
        simp only [Plan.expandSteps_eq_collect, Run.map_collect, map_bind]
        refine Run.collect_congr fun p hmem => ?_
        obtain ⟨⟨e, step⟩, i⟩ := p
        refine bind_congr fun made => ?_
        exact ih (hwithin (Check.nodes_stepCheck hshape (List.fst_mem_of_mem_zipIdx hmem) i made))
    · rename_i binding pairs hshape
      simp only [Plan.expand, map_bind, standard_outcome]
      refine bind_congr fun o => ?_
      cases o >>= fun value => binding.bind value c.scope with
      | error t => rfl
      | ok scope =>
        simp only [Plan.expandPairs_eq_collect, Run.map_collect]
        refine Run.collect_congr fun p hmem => ?_
        obtain ⟨⟨e, a⟩, i⟩ := p
        exact ih (hwithin (Check.nodes_part_of_destructure hshape (List.fst_mem_of_mem_zipIdx hmem) i scope))
    · rename_i clauses body hshape
      simp only [Plan.expand, map_bind, standard_walk]
      refine bind_congr fun walked => ?_
      cases walked with
      | error t => rfl
      | ok iterations =>
        simp only [Plan.expandIterations_eq_collect, Run.map_collect]
        exact Run.collect_congr fun i _ => ih (hwithin (Check.nodes_iterationCheck hshape i))
    · rename_i collection hshape
      simp only [Plan.expand, map_pure, List.map_cons, List.map_nil]
      refine congrArg (fun run => pure [run]) (standard_search _ engine fun v => ?_)
      rw [ih (hwithin (Check.nodes_element hshape v))]
      simp only [bind_map_left, Run.collect_map, Item.runAll_eq_collect]
      rfl

/-- An assertion is expanded, and its items are run, with no more calls open at once than its two
forms have nodes: what would be done beyond that makes no difference to the program. Where
evaluating forms and calling values come to an end, and schemas answer, expanding the assertion
comes to an end, and running each of its items does. -/
theorem expand_within_nodes (engine : Engine) (a : Assertion) (site : Site) (scope : Scope)
    (beyond : Check → Checking (List (Checking (List Event))))
    (hlimit : a.expected.nodes + a.actual.nodes ≤ limit) :
    standard.expand engine beyond limit (a.check site scope) =
        List.map (Item.run engine) <$> a.expandAt site scope ∧
      ∀ E : Evaluation, E.Total → engine.Total →
        (E.expand engine beyond limit (a.check site scope)).Concludes fun runs =>
          ∀ run ∈ runs, run.Total := by
  constructor
  · exact standard_expand hlimit
  · intro E hE hengine
    exact expand_concludes hE hengine hlimit

/-! ## An evaluation that comes to an end -/

/-- A computation that throws where another one gives up. -/
def orThrow (t : Thrown) (x : Eval Value) : Eval Value := fun s =>
  match x s with
  | (.error (.exhausted _), u) => (.error (.thrown t), u)
  | r => r

theorem orThrow_total (t : Thrown) (x : Eval Value) : (orThrow t x).Total := by
  intro s
  unfold orThrow
  rcases x s with ⟨(e | _) | v, u⟩
  · exact .inr ⟨e, u, rfl⟩
  · exact .inr ⟨t, u, rfl⟩
  · exact .inl ⟨v, u, rfl, trivial⟩

/-- The evaluation of the language, but reaching a limit is an error that is thrown. -/
def guarded : Evaluation where
  form form site scope := orThrow (.argument "limit reached") (form.evalAt site scope)
  call f site args := orThrow (.argument "limit reached") (f.applyAt site args)

theorem guarded_total : guarded.Total where
  form _ _ _ := orThrow_total _ _
  call _ _ _ := orThrow_total _ _

/-- `(expect (more 1 (more-> 2 (inc))) (from-each [x [[1] [2 1]]] (in x)))` has twenty-one nodes. -/
theorem incremented_within_twentyOne :
    let a : Assertion := {
      expected := .list [.sym "more", .lit (.int 1), .list [.sym "more->", .lit (.int 2), .list [.sym "inc"]]]
      actual := .list [.sym "from-each",
        .vector [.sym "x", .vector [.vector [.lit (.int 1)], .vector [.lit (.int 2), .lit (.int 1)]]],
        .list [.sym "in", .sym "x"]] }
    let scope : Scope := [("inc", .fn (.builtin .inc))]
    a.expected.nodes + a.actual.nodes = 21 ∧
      standard.expand {} (fun _ => Run.exhausted) 21 (a.check [0] scope) =
        List.map (Item.run {}) <$> a.expandAt [0] scope ∧
      (guarded.expand {} (fun _ => Run.exhausted) 21 (a.check [0] scope)).Concludes fun runs =>
        ∀ run ∈ runs, run.Total := by
  intro a scope
  have hnodes : a.expected.nodes + a.actual.nodes = 21 := by decide
  obtain ⟨hprogram, htotal⟩ := expand_within_nodes {} a [0] scope (fun _ => Run.exhausted) (Nat.le_of_eq hnodes)
  refine ⟨hnodes, hprogram, htotal guarded guarded_total ?_⟩
  rintro v ⟨⟩

end Evaluation

end Attest
