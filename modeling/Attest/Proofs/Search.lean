import Attest.Proofs.Quiet
import Attest.Proofs.Reporting
/-!
# Searching a collection

What a search reports is elevated from the events of all elements, so it succeeds as soon as one
element has an event that passes (`Engine.isSuccess_check_in_iff`). For a single expectation that
is the same as an element that satisfies it; a grouping may pass in part.
-/

namespace Attest

/-! ## Elevation -/

theorem mem_eventsOf {status : Status} {events : List Event} {e : Event} :
    e ∈ eventsOf status events ↔ e ∈ events ∧ e.status = status := by
  simp [eventsOf]

/-- A summary is a success when every event passed. -/
theorem Summary.isSuccess_iff (events : List Event) :
    (Summary.ofEvents events).isSuccess = true ↔ ∀ e ∈ events, e.status = .pass := by
  simp only [Summary.isSuccess, Summary.ofEvents, Bool.and_eq_true, beq_iff_eq, List.countP_eq_zero,
    ← forall₂_and]
  constructor
  · intro h e he
    have hfail := (h e he).1
    have herror := (h e he).2
    cases hs : e.status <;> simp_all
  · intro h e he
    simp [h e he]

/-- Elevated events that are not empty are a success exactly when one of the collected passed. -/
theorem isSuccess_elevate_iff {events : List Event} (h : elevate events ≠ []) :
    (Summary.ofEvents (elevate events)).isSuccess = true ↔ ∃ e ∈ events, e.isPass = true := by
  rw [Summary.isSuccess_iff]
  unfold elevate at h ⊢
  by_cases hpass : events.any Event.isPass = true
  · rw [if_pos hpass]
    constructor
    · intro _
      exact List.any_eq_true.1 hpass
    · intro _ e he
      exact (mem_eventsOf.1 he).2
  · rw [if_neg hpass] at h ⊢
    constructor
    · intro hall
      obtain ⟨e, he⟩ := List.exists_mem_of_ne_nil _ h
      have hnone : ∀ e ∈ events, ¬e.status = .pass := by simpa [Event.isPass] using hpass
      have hmem : e ∈ events := by
        rcases List.mem_append.1 he with he | he
        · exact (mem_eventsOf.1 he).1
        · exact (mem_eventsOf.1 he).1
      exact absurd (hall e he) (hnone e hmem)
    · intro hsome
      exact absurd (List.any_eq_true.2 hsome) hpass

/-! ## Runs that differ in nothing -/

/-- Two runs with one engine in one scope, whose subjects may be given in different ways. -/
def Variation.same (engine : Engine) : Variation where
  __ := reporting engine.schemas engine.renderer engine.renderer
  texts := True
  messages := Eq
  renderer _ := rfl
  context h line := withContext_congr h line
  reason _ _ := rfl

theorem Variation.eq_of_same {engine : Engine} {es es' : List Event}
    (h : List.Forall₂ (same engine).EventAlike es es') : es = es' :=
  events_eq trivial (fun _ _ hm => hm) h

/-! ## The events of one element -/

namespace Engine

/-- The events of a check under the plan of an expected form. -/
def eventsUnder (engine : Engine) (expected : Form) (c : Check) : Checking (List Event) := do
  let items ← (Plan.ofExpected expected).expand c
  Item.runAll engine items

/-- The events of an expected form for a value alone, at a place. -/
def checkValue (engine : Engine) (a : Assertion) (site : Site) (scope : Scope) (v : Value) :
    Checking (List Event) := engine.checkAt { a with actual := .lit v } site scope

variable {engine : Engine} {a : Assertion} {site : Site} {scope : Scope}

theorem plan_of_contains {collection : Form} (h : a.actual = .list [.sym "in", collection]) :
    a.plan = .contains collection (.ofExpected a.expected) := by
  unfold Assertion.plan Plan.ofForms
  rw [Plan.around_eq, h]
  rfl

/-- Checking against a collection is one search. -/
theorem checkAt_of_contains {collection : Form} (h : a.actual = .list [.sym "in", collection]) :
    engine.checkAt a site scope =
      Search.run { a.check site scope with subject := .form collection } (engine.eventsUnder a.expected) engine := by
  unfold checkAt Assertion.expandAt
  rw [plan_of_contains h]
  simp only [Plan.expand, pure_bind, Item.runAll, Item.run, List.append_nil, bind_pure]
  rfl

/-- Checking a value alone is checking it as an element, at the same place. -/
theorem checkValue_eq (c : Check) (hc : c = { a.check site scope with subject := c.subject }) (v : Value) :
    engine.checkValue a (site.part 0) scope v = engine.eventsUnder a.expected (Search.element c v) := by
  have hplan : (Assertion.plan { a with actual := .lit v }) = .ofExpected a.expected := by
    unfold Assertion.plan Plan.ofForms
    rw [Plan.around_eq]
    rfl
  have halike : (Variation.same engine).CheckAlike
      (Assertion.check { a with actual := .lit v } (site.part 0) scope) (Search.element c v) := by
    rw [hc]
    exact ⟨⟨rfl, trivial, rfl, rfl, fun _ => rfl, rfl, rfl⟩, fun ε => rfl⟩
  have hw : (Plan.ofExpected a.expected).Within (Variation.same engine).forms :=
    Plan.ofExpected_within (Variation.same engine).parts trivial
  unfold checkValue checkAt Assertion.expandAt eventsUnder
  rw [hplan]
  have hrel := (Variation.expand_alike _ hw halike).bind fun is is' hi => Variation.runAll_alike hi
  exact (hrel.mono fun es es' he => Variation.eq_of_same he).eq

/-- Without probes, with a quiet engine, the events of a check are the same whenever it is run. -/
theorem eventsUnder_steady (hq : engine.Quiet .silent) {expected : Form}
    (he : Invariant.silent.OfForm expected) {c : Check} (hc : Invariant.silent.OfCheck c) :
    ∃ r, ∀ s, engine.eventsUnder expected c s = (r, s) := by
  have hplan := Plan.ofExpected_within Invariant.inherited he
  have hrun : Invariant.silent.Running engine (engine.eventsUnder expected c) :=
    Run.Ends.bind ((Invariant.expand_kept _ hplan hc).running engine) fun items hi =>
      Invariant.runAll_running hi engine
  exact hrun.steady ⟨id, hq⟩

theorem ofExpected_of_primitive {expected : Form} (h : Grouping.parse expected = .ok .primitive) :
    Plan.ofExpected expected = .primitive := by
  rw [Plan.ofExpected_eq, h]

/-- A single expectation has one event. -/
theorem eventsUnder_primitive {expected : Form} (h : Grouping.parse expected = .ok .primitive) (c : Check) :
    engine.eventsUnder expected c = (fun e => [e]) <$> c.run engine := by
  unfold eventsUnder
  rw [ofExpected_of_primitive h]
  simp only [Plan.expand, pure_bind, Item.runAll, Item.run, bind_assoc, List.append_nil]
  rfl

/-- A conjunction of two single expectations has the event of one, then that of the other. -/
theorem eventsUnder_more {e f : Form} (he : Grouping.parse e = .ok .primitive)
    (hf : Grouping.parse f = .ok .primitive) :
    engine.eventsUnder (.list [.sym "more", e, f]) = fun c => (do
      let outcome ← c.outcome
      let first ← (c.part 0 e (.outcome outcome)).run engine
      let second ← (c.part 1 f (.outcome outcome)).run engine
      pure [first, second]) := by
  have hparse : Grouping.parse (.list [.sym "more", e, f]) = .ok (.conjunction [e, f]) := rfl
  funext c
  unfold eventsUnder
  rw [Plan.ofExpected_eq, hparse]
  simp only [List.map, ofExpected_of_primitive he, ofExpected_of_primitive hf, Plan.expand, Plan.expandParts,
    Item.runAll, Item.run, pure_bind, bind_assoc, List.append_nil, List.cons_append, List.nil_append]

end Engine

namespace Search

/-- The events of the elements, one after the other, are those that each element has alone. -/
theorem mem_of_eventsOf {each : Check → Checking (List Event)} {c : Check} {items : List Value}
    (hsteady : ∀ v ∈ items, ∃ r, ∀ s, each (element c v) s = (r, s)) {s t : Effects} {events : List Event}
    (h : eventsOf each c items s = (.ok events, t)) (e : Event) :
    e ∈ events ↔ ∃ v ∈ items, ∃ found, (∀ s, each (element c v) s = (.ok found, s)) ∧ e ∈ found := by
  induction items generalizing s events with
  | nil =>
    cases h
    simp
  | cons v vs ih =>
    obtain ⟨r, hr⟩ := hsteady v List.mem_cons_self
    unfold eventsOf at h
    obtain ⟨first, u, hfirst, h⟩ := Run.ok_of_bind h
    obtain ⟨rest, w, hrest, h⟩ := Run.ok_of_bind h
    cases h
    have hv : ∀ s, each (element c v) s = (.ok first, s) := by
      intro s'
      have hok : (r, s) = (.ok first, u) := (hr s).symm.trans hfirst
      rw [hr s', (Prod.mk.inj hok).1]
    have htail := ih (fun w hw => hsteady w (List.mem_cons_of_mem _ hw)) hrest
    rw [List.mem_append, htail]
    constructor
    · rintro (he | ⟨w, hw, found, hfound, he⟩)
      · exact ⟨v, List.mem_cons_self, first, hv, he⟩
      · exact ⟨w, List.mem_cons_of_mem _ hw, found, hfound, he⟩
    · rintro ⟨w, hw, found, hfound, he⟩
      rcases List.mem_cons.1 hw with rfl | hw
      · have hok := (hfound s).symm.trans (hv s)
        cases hok
        exact .inl he
      · exact .inr ⟨w, hw, found, hfound, he⟩

/-- A search of a list or a set elevates the events of the elements. -/
theorem run_of_elements {each : Check → Checking (List Event)} {engine : Engine} {c : Check} {s t : Effects}
    {found : Value} {items : List Value} (hout : (c.outcome : Run Defect Outcome) s = (.ok (.ok found), t))
    (hitems : found = .list items ∨ found = .set items) :
    run c each engine s = (do return elevate (← eventsOf each c items)) t := by
  have hsearched : Searched.ofValue found = .ok (.elements items) := by
    rcases hitems with rfl | rfl <;> rfl
  unfold run
  rw [Run.bind_of_ok hout]
  simp only [hsearched, Run.ofExcept, pure_bind]

end Search

namespace Engine

variable {engine : Engine} {a : Assertion} {scope : Scope}

/-- A single expectation that is checked has one event. -/
theorem eq_singleton_of_primitive {expected : Form} (hp : Grouping.parse expected = .ok .primitive)
    {c : Check} {s : Effects} {events : List Event}
    (h : (engine.eventsUnder expected c s).1 = .ok events) : ∃ e, events = [e] := by
  rw [eventsUnder_primitive hp, map_eq_pure_bind, Run.bind_apply] at h
  rcases hrun : c.run engine s with ⟨_ | e, u⟩
  · rw [hrun] at h
    cases h
  · rw [hrun] at h
    cases h
    exact ⟨e, rfl⟩

/-- Without probes a collection has the same value whenever it is computed, and there are no
probes in its elements. -/
theorem collection_steady {collection : Form} {site : Site} (hc : Invariant.silent.OfForm collection)
    (hs : Invariant.silent.OfScope scope) {s : Effects} {found : Value} {items : List Value}
    (hfound : (collection.evalAt site scope s).1 = .ok found)
    (hitems : found = .list items ∨ found = .set items) :
    (∀ s', collection.evalAt site scope s' = (.ok found, s')) ∧ Invariant.silent.OfItems items := by
  have hkept := Invariant.evalAt_kept site hs hc
  obtain ⟨r, hr⟩ := hkept.steady id
  obtain rfl : r = .ok found := by rw [← hfound, hr]
  have hvalue : Invariant.silent.OfValue found := hkept.ok s found s (hr s)
  refine ⟨hr, ?_⟩
  rcases hitems with rfl | rfl
  · exact hvalue
  · exact hvalue.2

/-- A search reports what elevation leaves of the events that the elements have when they are
checked alone. -/
theorem exists_collected_of_check_in {collection : Form} (hin : a.actual = .list [.sym "in", collection])
    (he : Invariant.silent.OfForm a.expected) (hc : Invariant.silent.OfForm collection)
    (hs : Invariant.silent.OfScope scope) (hq : engine.Quiet .silent) {s t : Effects} {events : List Event}
    (hrun : engine.check a scope s = (.ok events, t)) {found : Value} {items : List Value}
    (hfound : (collection.evalAt (Site.subject [s.turns]) scope s).1 = .ok found)
    (hitems : found = .list items ∨ found = .set items) :
    ∃ collected, events = elevate collected ∧ ∀ e, e ∈ collected ↔
      ∃ v ∈ items, ∃ alone, (engine.checkValue a (Site.part [s.turns] 0) scope v s).1 = .ok alone ∧ e ∈ alone := by
  obtain ⟨hsteady, hmembers⟩ := collection_steady hc hs hfound hitems
  generalize hk : { a.check [s.turns] scope with subject := .form collection } = k
  have hout : ∀ s', (k.outcome : Run Defect Outcome) s' = (.ok (.ok found), s') := by
    intro s'
    rw [← hk]
    show Run.attempt (collection.evalAt (Site.subject [s.turns]) scope) s' = _
    rw [Run.attempt_apply, hsteady]
  -- Each element has the same events in the search and alone.
  have helement : ∀ v ∈ items, ∃ r, ∀ s, engine.eventsUnder a.expected (Search.element k v) s = (r, s) := by
    intro v hv
    refine eventsUnder_steady hq he ?_
    rw [← hk]
    exact ⟨he, Invariant.ofItems_iff.1 hmembers v hv, hs⟩
  have hsame : ∀ v ∈ items, ∀ alone, (engine.checkValue a (Site.part [s.turns] 0) scope v s).1 = .ok alone ↔
      ∀ s', engine.eventsUnder a.expected (Search.element k v) s' = (.ok alone, s') := by
    intro v hv alone
    obtain ⟨r, hr⟩ := helement v hv
    rw [checkValue_eq k (by rw [← hk]) v, hr s]
    constructor
    · rintro rfl s'
      exact hr s'
    · intro h
      exact congrArg Prod.fst ((hr s).symm.trans (h s))
  have hsearch : Search.run k (engine.eventsUnder a.expected) engine { s with turns := s.turns + 1 } =
      (.ok events, t) := by
    rw [← hk, ← hrun, ← checkAt_of_contains hin]
    rfl
  rw [Search.run_of_elements (hout _) hitems] at hsearch
  obtain ⟨collected, u, hcollected, hreturn⟩ := Run.ok_of_bind hsearch
  cases hreturn
  refine ⟨collected, rfl, fun e => (Search.mem_of_eventsOf helement hcollected e).trans ?_⟩
  exact exists_congr fun v => and_congr_right fun hv => exists_congr fun alone =>
    and_congr_left fun _ => (hsame v hv alone).symm

/-- Events of which the statuses are known. -/
theorem exists_of_statuses {ε : Type} {x : Except ε (List Event)} {statuses : List Status}
    (h : x.toOption.map (List.map Event.status) = some statuses) :
    ∃ events, x = .ok events ∧ events.map Event.status = statuses := by
  cases x with
  | error e => cases h
  | ok events => exact ⟨events, rfl, Option.some.inj h⟩

/-- `(expect (more 1 2) (in [1 2]))`. -/
def oneAndTwo : Assertion where
  expected := .list [.sym "more", .lit (.int 1), .lit (.int 2)]
  actual := .list [.sym "in", .vector [.lit (.int 1), .lit (.int 2)]]

theorem eventsUnder_oneAndTwo : Engine.eventsUnder {} oneAndTwo.expected = fun c => (do
    let outcome ← c.outcome
    let first ← (c.part 0 (.lit (.int 1)) (.outcome outcome)).run {}
    let second ← (c.part 1 (.lit (.int 2)) (.outcome outcome)).run {}
    pure [first, second]) := eventsUnder_more rfl rfl

/-- Each element passes in part, and what passes remains of the events of all elements. -/
theorem statuses_check_oneAndTwo :
    (Engine.check {} oneAndTwo .empty {}).1.toOption.map (List.map Event.status) = some [.pass, .pass] := by
  show (Engine.checkAt {} oneAndTwo [0] .empty { turns := 1 }).1.toOption.map (List.map Event.status) = _
  rw [checkAt_of_contains rfl, eventsUnder_oneAndTwo]
  decide +kernel

end Engine

end Attest
