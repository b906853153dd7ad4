import Attest.Proofs.Comprehension
/-!
# Malformed expectations

An expected form that is malformed is a defect once it is reached. Where the actual form is a
single subject it is reached before anything is evaluated; a traversal reaches it in each
iteration, and a search with each element. So an assertion that goes through nothing is not
rejected (`Engine.more_unrejected_by_empty`), but it has no event that the expectation passed or
failed: its events are errors that combinators threw, or come from searching a map, where the
expected form is evaluated and not read as a grouping (`Engine.check_malformed`).
-/

namespace Attest

variable {engine : Engine} {d : Defect}

/-! ## What a malformed expectation is expanded to -/

/-- An item that meets a defect as soon as it checks an element, or has been thrown. -/
def Item.Refusing (d : Defect) (expected : Form) : Item → Prop
  | .check _ => False
  | .search c each => c.expected = expected ∧ ∀ engine k, each engine k = Run.raise d
  | .broken e => e.status = .error

theorem Plan.ofExpected_of_malformed {expected : Form} (h : Grouping.parse expected = .error d) :
    ofExpected expected = .malformed d := by
  rw [ofExpected_eq, h]

/-- A malformed expectation is never expanded to a check of its own. -/
theorem Plan.around_malformed_ends (actual : Form) (c : Check) :
    Run.Ends False (fun items => ∀ i ∈ items, i.Refusing d c.expected) (fun _ => True)
      ((around (.malformed d) actual).expand c) := by
  induction hn : actual.nodes using Nat.strongRecOn generalizing actual c with
  | ind n ih =>
    rw [around_eq]
    cases hp : Traversal.parse? actual with
    | none =>
      simp only [expand]
      exact .raise trivial
    | some r =>
      match r, hp with
      | .error d', _ =>
        simp only [expand]
        exact .raise trivial
      | .ok (.contains collection), _ =>
        simp only [expand]
        refine .pure fun i hi => ?_
        rw [List.mem_singleton.1 hi]
        exact ⟨rfl, fun engine k => rfl⟩
      | .ok (.perElement clauses body), hp =>
        simp only [expand]
        refine Run.Ends.bind (.any _) fun walked _ => ?_
        cases walked with
        | error t =>
          refine .pure fun i hi => ?_
          rw [List.mem_singleton.1 hi]
          rfl
        | ok iterations =>
          have hlt := Traversal.nodes_lt_of_perElement hp
          refine expandIterations_ends fun i _ => ?_
          exact ih body.nodes (hn ▸ hlt) body (iterationCheck c clauses body i) rfl

/-! ## What its items report -/

/-- An event of something thrown, or of the search of a map for what a form evaluates to. -/
def Event.Unchecked (engine : Engine) (expected : Form) (e : Event) : Prop :=
  e.status = .error ∨ ∃ c under s t, c.expected = expected ∧ Search.runEntries c engine under s = (.ok e, t)

theorem Search.eventsOf_refused {each : Check → Checking (List Event)} (h : ∀ k, each k = Run.raise d)
    (c : Check) (items : List Value) :
    Run.Ends False (fun events => events = []) (fun _ => True) (eventsOf each c items) := by
  cases items with
  | nil => exact .pure rfl
  | cons v vs =>
    unfold eventsOf
    rw [h]
    exact Run.Ends.bind (P := fun _ => False) (.raise trivial) fun _ hf => hf.elim

theorem Item.Refusing.run_ends {expected : Form} {item : Item} (h : item.Refusing d expected) :
    Run.Ends False (fun events => ∀ e ∈ events, e.Unchecked engine expected) (fun _ => True)
      (item.run engine) := by
  cases item with
  | check c => exact h.elim
  | broken e =>
    refine .pure fun e' he => ?_
    rw [List.mem_singleton.1 he]
    exact .inl h
  | search c each =>
    obtain ⟨rfl, heach⟩ := h
    show Run.Ends False _ _ (Search.run c (each engine) engine)
    unfold Search.run
    refine Run.Ends.bind (.any _) fun outcome _ => ?_
    cases outcome with
    | error t =>
      refine .pure fun e he => ?_
      rw [List.mem_singleton.1 he]
      exact .inl rfl
    | ok collection =>
      refine Run.Ends.bind (.any _) fun searched _ => ?_
      cases searched with
      | elements items =>
        refine Run.Ends.bind (Search.eventsOf_refused (heach engine) c items) fun events hnone => ?_
        rw [hnone]
        exact .pure fun e he => absurd he List.not_mem_nil
      | entries under =>
        refine Run.Ends.bind (.given _) fun e he => .pure fun e' hmem => ?_
        obtain ⟨s, t, hrun⟩ := he
        rw [List.mem_singleton.1 hmem]
        exact .inr ⟨c, under, s, t, rfl, hrun⟩

namespace Engine

variable {a : Assertion}

/-- A malformed expectation of a single subject is a defect, with nothing evaluated. In any case no
event tells that it passed or failed, unless a map is searched for the value of the form. -/
theorem check_malformed (engine : Engine) (scope : Scope) (h : Grouping.parse a.expected = .error d) :
    (Traversal.parse? a.actual = none → ∀ s,
      engine.check a scope s = (.error (.thrown d), { s with turns := s.turns + 1 })) ∧
    ∀ s events t, engine.check a scope s = (.ok events, t) → ∀ e ∈ events, e.Unchecked engine a.expected := by
  have hplan : a.plan = .around (.malformed d) a.actual := by
    unfold Assertion.plan Plan.ofForms
    rw [Plan.ofExpected_of_malformed h]
  constructor
  · intro hactual s
    have hmalformed : a.plan = .malformed d := by rw [hplan, Plan.around_eq, hactual]
    show engine.checkAt a [s.turns] scope _ = _
    unfold checkAt Assertion.expandAt
    rw [hmalformed]
    rfl
  · intro s events t hrun
    obtain ⟨site, u, -, hcheck⟩ := Run.ok_of_bind hrun
    have hends : Run.Ends False (fun events => ∀ e ∈ events, e.Unchecked engine a.expected) (fun _ => True)
        (engine.checkAt a site scope) := by
      unfold checkAt Assertion.expandAt
      rw [hplan]
      refine (Plan.around_malformed_ends a.actual (a.check site scope)).bind fun items hi => ?_
      exact Item.runAll_ends fun i hmem => (hi i hmem).run_ends
    exact hends.ok u events t hcheck

/-- `(expect (more) 1)`. -/
theorem check_more_one :
    ∃ d, Grouping.parse (.list [.sym "more"]) = .error d ∧
      (Engine.check {} { expected := .list [.sym "more"], actual := .lit (.int 1) } .empty {}).1 =
        .error (.thrown d) := by
  have hparse : Grouping.parse (.list [.sym "more"]) = .error (.arity (.list [.sym "more"]) .atLeastOne 0) := rfl
  have hcheck := (check_malformed (a := { expected := .list [.sym "more"], actual := .lit (.int 1) }) {} .empty
    hparse).1 rfl {}
  exact ⟨_, hparse, by rw [hcheck]⟩

/-! ## Whether there is anything to go through -/

section Computed

variable {site : Site} {scope : Scope} {x : String} {collection : Form} {found : Value} {items : List Value}
  {s t : Effects}

/-- A search reaches a malformed expectation unless the collection is empty. -/
theorem checkAt_malformed_search (h : Grouping.parse a.expected = .error d)
    (hfound : collection.evalAt site.subject scope s = (.ok found, t))
    (hitems : found = .list items ∨ found = .set items) :
    engine.checkAt { a with actual := .search collection } site scope s =
      (if items.isEmpty then .ok [] else .error (.thrown d), t) := by
  have hunder : ∀ c, engine.eventsUnder a.expected c = Run.raise d := by
    intro c
    unfold eventsUnder
    rw [Plan.ofExpected_of_malformed h]
    rfl
  rw [checkAt_search_of_elements hfound hitems]
  cases items with
  | nil => rfl
  | cons v vs =>
    unfold Search.eventsOf
    rw [hunder]
    rfl

/-- So does a traversal. -/
theorem checkAt_malformed_eachNamed (h : Grouping.parse a.expected = .error d) (hx : x ≠ "&")
    (hfound : collection.evalAt site.subject scope s = (.ok found, t)) (hitems : found.elements? = some items) :
    engine.checkAt { a with actual := .eachNamed x collection } site scope s =
      (if items.isEmpty then .ok [] else .error (.thrown d), t) := by
  rw [checkAt_eachNamed_of_elements hx hfound hitems, Plan.ofExpected_of_malformed h]
  cases items <;> rfl

end Computed

/-- `(more)` expects nothing and is malformed, which no empty collection tells: neither traversing
nor searching one gives any event, and that is a success. With an element it is a defect. -/
theorem more_unrejected_by_empty :
    ∃ d, Grouping.parse (.list [.sym "more"]) = .error d ∧
      (Engine.check {} { expected := .list [.sym "more"], actual := .eachNamed "x" (.vector []) } .empty {}).1 =
        .ok [] ∧
      (Engine.check {} { expected := .list [.sym "more"], actual := .search (.vector []) } .empty {}).1 = .ok [] ∧
      (Summary.ofEvents []).isSuccess = true ∧
      (Engine.check {} { expected := .list [.sym "more"], actual := .eachNamed "x" (.vector [.lit .nil]) }
        .empty {}).1 = .error (.thrown d) := by
  have hparse : Grouping.parse (.list [.sym "more"]) = .error (.arity (.list [.sym "more"]) .atLeastOne 0) := rfl
  refine ⟨_, hparse, ?_, ?_, rfl, ?_⟩
  · show (Engine.checkAt {} { expected := .list [.sym "more"], actual := .eachNamed "x" (.vector []) } [0] .empty
      { turns := 1 }).1 = _
    rw [checkAt_malformed_eachNamed (a := { expected := .list [.sym "more"], actual := .lit .nil }) hparse
      (by decide) rfl (rfl : (Value.list []).elements? = some [])]
    rfl
  · show (Engine.checkAt {} { expected := .list [.sym "more"], actual := .search (.vector []) } [0] .empty
      { turns := 1 }).1 = _
    rw [checkAt_malformed_search (a := { expected := .list [.sym "more"], actual := .lit .nil }) hparse rfl
      (.inl (rfl : Value.list [] = .list []))]
    rfl
  · show (Engine.checkAt {} { expected := .list [.sym "more"], actual := .eachNamed "x" (.vector [.lit .nil]) } [0]
      .empty { turns := 1 }).1 = _
    rw [checkAt_malformed_eachNamed (a := { expected := .list [.sym "more"], actual := .lit .nil }) hparse
      (by decide) rfl (rfl : (Value.list [.nil]).elements? = some [.nil])]
    rfl

end Engine

end Attest
