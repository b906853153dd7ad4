import Attest.Proofs.Fresh
import Attest.Proofs.Search
/-!
# Searching and going through

A search expands and checks one element after the other; a traversal that binds each element
expands all of them first, and then checks. Without probes the order does not matter, and a
name that is not mentioned cannot either, so a search reports the elevated events of such a
traversal (`Engine.check_in_fromEach`).
-/

namespace Attest

/-! ## Expanding first, or one by one -/

namespace Item

variable {engine : Engine} {α : Type}

theorem runAll_append (items others : List Item) :
    runAll engine (items ++ others) = (do
      let first ← runAll engine items
      let rest ← runAll engine others
      pure (first ++ rest)) := by
  simp only [runAll_eq_collect, Run.collect_append]

/-- The events of several things, each expanded and run before the next. -/
def gather (each : α → Checking (List Event)) : List α → Checking (List Event)
  | [] => pure []
  | a :: as => do
    let first ← each a
    let rest ← gather each as
    pure (first ++ rest)

theorem gather_eq_collect (each : α → Checking (List Event)) (as : List α) : gather each as = Run.collect each as := by
  induction as with
  | nil => rfl
  | cons a as ih =>
    unfold gather
    rw [ih]
    rfl

end Item

/-- Computations that give the same results with the same effects, if they give any. -/
def Run.SameResults {ε α : Type} (x y : Run ε α) : Prop :=
  ∀ s t a, x s = (.ok a, t) ↔ y s = (.ok a, t)

namespace Run.SameResults

variable {ε α β : Type}

theorem refl (x : Run ε α) : x.SameResults x := fun _ _ _ => Iff.rfl

theorem bind {x y : Run ε α} {f g : α → Run ε β} (h : x.SameResults y) (hfg : ∀ a, (f a).SameResults (g a)) :
    (x >>= f).SameResults (y >>= g) := by
  intro s t b
  constructor
  · intro hb
    obtain ⟨a, u, ha, hb⟩ := ok_of_bind hb
    rw [bind_of_ok ((h s u a).1 ha)]
    exact (hfg a u t b).1 hb
  · intro hb
    obtain ⟨a, u, ha, hb⟩ := ok_of_bind hb
    rw [bind_of_ok ((h s u a).2 ha)]
    exact (hfg a u t b).2 hb

/-- Computations that never give a result. -/
theorem of_none {x y : Run ε α} (hx : ∀ s t a, x s ≠ (.ok a, t)) (hy : ∀ s t a, y s ≠ (.ok a, t)) :
    x.SameResults y := fun s t a => ⟨fun h => absurd h (hx s t a), fun h => absurd h (hy s t a)⟩

end Run.SameResults

/-- A sequence that stops in its first part gives no result. -/
theorem Run.bind_ne_ok {ε α β : Type} {x : Run ε α} (hx : ∀ s t a, x s ≠ (.ok a, t)) (f : α → Run ε β)
    (s t : Effects) (b : β) : (x >>= f) s ≠ (.ok b, t) := by
  intro h
  obtain ⟨a, u, ha, -⟩ := ok_of_bind h
  exact hx s u a ha

theorem Run.eq_pure_of_steady {ε α : Type} {x : Run ε α} {a : α} (h : ∀ s, x s = (.ok a, s)) : x = pure a :=
  funext h

/-- If expanding is quiet, everything may as well be expanded before anything is run. -/
theorem Item.gather_sameResults (engine : Engine) {expand : Iteration → Checking (List Item)}
    {is : List Iteration} (hsteady : ∀ i ∈ is, ∃ r, ∀ s, expand i s = (r, s)) :
    (gather (fun i => expand i >>= runAll engine) is).SameResults
        (Plan.expandIterations expand is >>= runAll engine) ∧
      ∃ r, ∀ s, Plan.expandIterations expand is s = (r, s) := by
  induction is with
  | nil => exact ⟨.refl _, .ok [], fun s => rfl⟩
  | cons i rest ih =>
    obtain ⟨r, hr⟩ := hsteady i List.mem_cons_self
    obtain ⟨hsame, r', hr'⟩ := ih fun j hj => hsteady j (List.mem_cons_of_mem _ hj)
    cases r with
    | error e =>
      have hnone : ∀ s t items, expand i s ≠ (.ok items, t) := by
        intro s t items h
        rw [hr s] at h
        cases h
      refine ⟨.of_none (Run.bind_ne_ok (Run.bind_ne_ok hnone _) _) ?_, .error e, fun s => Run.bind_of_error (hr s) _⟩
      exact Run.bind_ne_ok (Run.bind_ne_ok hnone _) _
    | ok items =>
      have hi := Run.eq_pure_of_steady hr
      cases r' with
      | error e =>
        have hnone : ∀ s t others, Plan.expandIterations expand rest s ≠ (.ok others, t) := by
          intro s t others h
          rw [hr' s] at h
          cases h
        have hall : Plan.expandIterations expand (i :: rest) = (Plan.expandIterations expand rest >>=
            fun others => pure (items ++ others)) := by
          simp only [Plan.expandIterations, hi, pure_bind]
        rw [hall]
        refine ⟨.of_none ?_ (Run.bind_ne_ok (Run.bind_ne_ok hnone _) _), .error e,
          fun s => Run.bind_of_error (hr' s) _⟩
        -- Running the first items may stop before the defect of the others is met.
        intro s t events h
        obtain ⟨first, u, -, h⟩ := Run.ok_of_bind h
        obtain ⟨later, w, hlater, -⟩ := Run.ok_of_bind h
        exact Run.bind_ne_ok hnone _ u w later ((hsame u w later).1 hlater)
      | ok others =>
        have hrest := Run.eq_pure_of_steady hr'
        have hall : Plan.expandIterations expand (i :: rest) = pure (items ++ others) := by
          simp only [Plan.expandIterations, hi, hrest, pure_bind]
        rw [hrest, pure_bind] at hsame
        rw [hall, pure_bind, runAll_append]
        refine ⟨?_, .ok (items ++ others), fun s => rfl⟩
        simp only [gather, hi, pure_bind]
        exact .bind (.refl _) fun first => .bind hsame fun later => .refl _

/-! ## A traversal that binds each element -/

/-- The clause that binds each element of a collection to a name. -/
def Clause.eachNamed (x : String) (collection : Form) : Clause := .each (.sym x) (.name x) collection

/-- The iteration for an element that is bound to a name. -/
def Iteration.ofElement (x : String) (scope : Scope) (v : Value) : Iteration :=
  ⟨scope.bind x v, [(Form.sym x).render ++ " " ++ v.render]⟩

namespace Traversal

variable {x : String} {collection : Form} {scope : Scope}

theorem forEach_pure (f : Value → Iteration) (vs : List Value) :
    forEach (fun v => pure [f v]) vs = pure (vs.map f) := by
  induction vs with
  | nil => rfl
  | cons v vs ih =>
    unfold forEach
    rw [ih]
    rfl

theorem walk_eachNamed (site : Site) :
    walk [.eachNamed x collection] site scope [] = (do
      let found ← collection.evalAt site.subject scope
      let items ← Run.ofExcept (sourceElements found)
      pure (items.map (Iteration.ofElement x scope))) := by
  unfold Clause.eachNamed
  simp only [walk, Binding.bind, Run.ofExcept, pure_bind, List.nil_append, ← forEach_pure]
  rfl

theorem parse?_fromEach (hx : x ≠ "&") :
    parse? (.list [.sym "from-each", .vector [.sym x, collection], .sym x]) =
      some (.ok (.perElement [.eachNamed x collection] (.sym x))) := by
  have hbinding : parseBinding (.sym x) = .ok (.name x) := by
    simp [parseBinding, Binding.parse, hx, Except.mapError]
  have hclause : ∀ form, parseClause form (.sym x) collection = .ok (.eachNamed x collection) := by
    intro form
    simp only [parseClause, hbinding]
    rfl
  have hclauses : ∀ form, parseClauses form [.sym x, collection] = .ok [.eachNamed x collection] := by
    intro form
    show ([(Form.sym x, collection)].mapM (fun p => parseClause form p.1 p.2) >>= fun clauses =>
      if clauses.head?.any Clause.isEach then pure clauses else throw _) = _
    simp only [List.mapM_cons, List.mapM_nil, hclause]
    rfl
  show some (parseFromEach _) = _
  simp only [parseFromEach, Form.args, hclauses]
  rfl

end Traversal

/-- An event without its message. -/
def Event.withoutMessage (e : Event) : Event := { e with message := none }

/-- Two runs in scopes that may differ in a name, with any messages. -/
def Variation.unannotated (engine : Engine) (x : String) : Variation :=
  .fresh engine x (fun _ _ => True) (fun _ _ => trivial) fun _ => trivial

theorem Variation.withoutMessage_eq {V : Variation} (ht : V.texts) {es es' : List Event}
    (h : List.Forall₂ V.EventAlike es es') : es.map Event.withoutMessage = es'.map Event.withoutMessage := by
  induction h with
  | nil => rfl
  | @cons e e' es es' he _ ih =>
    obtain ⟨hexpected, hactual, hdifference⟩ := he.texts ht
    rw [List.map_cons, List.map_cons, ih]
    simp [Event.withoutMessage, he.status, hexpected, hactual, hdifference]

theorem Form.evalAt_sym (name : String) (site : Site) (scope : Scope) {v : Value}
    (h : scope.lookup name = some v) : (Form.sym name).evalAt site scope = pure v := by
  have hstep : ∀ ev call, (Form.sym name).step ev call site scope = pure v := by
    intro ev call
    simp only [Form.step, h]
  exact hstep (eval (nestingLimit - 1)) (apply (nestingLimit - 1))

/-- The actual form that searches a collection. -/
def Form.search (collection : Form) : Form := .list [.sym "in", collection]

/-- The actual form that binds each element of a collection to a name, and is the element. -/
def Form.eachNamed (x : String) (collection : Form) : Form :=
  .list [.sym "from-each", .vector [.sym x, collection], .sym x]

namespace Engine

variable {engine : Engine} {a : Assertion} {scope : Scope} {x : String} {collection : Form}

/-! ## Once the collection has been computed -/

section Computed

variable {site : Site} {s t : Effects} {found : Value} {items : List Value} {e : Thrown}

/-- A search elevates the events of the elements. -/
theorem checkAt_search_of_elements (hfound : collection.evalAt site.subject scope s = (.ok found, t))
    (hitems : found = .list items ∨ found = .set items) :
    engine.checkAt { a with actual := .search collection } site scope s =
      (do return elevate (← Search.eventsOf (engine.eventsUnder a.expected)
        { a.check site scope with subject := .form collection } items)) t := by
  rw [checkAt_of_contains rfl]
  refine Search.run_of_elements ?_ hitems
  show Run.attempt (collection.evalAt site.subject scope) s = _
  rw [Run.attempt_apply, hfound]

/-- What the collection throws is all that a search reports. -/
theorem checkAt_search_of_thrown (hthrown : collection.evalAt site.subject scope s = (.error (.thrown e), t)) :
    engine.checkAt { a with actual := .search collection } site scope s =
      (.ok [(a.check site scope).thrownEvent e], t) := by
  have hout : (Run.attempt (collection.evalAt site.subject scope) : Checking Outcome) s = (.ok (.error e), t) := by
    rw [Run.attempt_apply, hthrown]
  rw [checkAt_of_contains rfl]
  unfold Search.run
  exact Run.bind_of_ok hout _

theorem plan_eachNamed (hx : x ≠ "&") :
    Assertion.plan { a with actual := .eachNamed x collection } =
      .perElement [.eachNamed x collection] (.sym x) (.ofExpected a.expected) := by
  unfold Assertion.plan Plan.ofForms Form.eachNamed
  rw [Plan.around_eq, Traversal.parse?_fromEach hx]
  simp only
  rw [Plan.around_eq]
  rfl

/-- A traversal expands an iteration for each element, then runs all items. -/
theorem checkAt_eachNamed_of_elements (hx : x ≠ "&")
    (hfound : collection.evalAt site.subject scope s = (.ok found, t)) (hitems : found.elements? = some items) :
    engine.checkAt { a with actual := .eachNamed x collection } site scope s =
      (Plan.expandIterations
          (fun i => (Plan.ofExpected a.expected).expand
            (Plan.iterationCheck (a.check site scope) [.eachNamed x collection] (.sym x) i))
          (items.map (.ofElement x scope)) >>= Item.runAll engine) t := by
  have hwalk : (Run.attempt (Traversal.walk [.eachNamed x collection] site scope []) : Checking _) s =
      (.ok (.ok (items.map (.ofElement x scope))), t) := by
    rw [Run.attempt_apply, Traversal.walk_eachNamed, Run.bind_of_ok hfound]
    simp [Traversal.sourceElements, hitems, Run.ofExcept]
  unfold checkAt Assertion.expandAt
  rw [plan_eachNamed hx]
  simp only [Plan.expand, bind_assoc]
  exact Run.bind_of_ok hwalk _

/-- What the collection throws is all that a traversal reports. -/
theorem checkAt_eachNamed_of_thrown (hx : x ≠ "&")
    (hthrown : collection.evalAt site.subject scope s = (.error (.thrown e), t)) :
    engine.checkAt { a with actual := .eachNamed x collection } site scope s =
      (.ok [(a.check site scope).thrownEvent e], t) := by
  have hwalk : (Run.attempt (Traversal.walk [.eachNamed x collection] site scope []) : Checking _) s =
      (.ok (.error e), t) := by
    rw [Run.attempt_apply, Traversal.walk_eachNamed, Run.bind_of_error hthrown]
  unfold checkAt Assertion.expandAt
  rw [plan_eachNamed hx]
  simp only [Plan.expand, bind_assoc]
  exact Run.bind_of_ok hwalk _

end Computed

/-! ## Element by element -/

variable (engine scope x collection)

/-- The check of an element in a search is run as that of an iteration in which a name that is
not mentioned is bound to the element. -/
theorem element_alike (he : a.expected.Omits x) (site : Site) (v : Value) :
    (Variation.unannotated engine x).CheckAlike
      (Search.element { a.check site scope with subject := .form collection } v)
      (Plan.iterationCheck (a.check site scope) [.eachNamed x collection] (.sym x) (.ofElement x scope v)) where
  expected := rfl
  form := he
  scope := Scope.AgreeExcept.bind x v scope
  raise := rfl
  label _ := rfl
  message := trivial
  site := rfl
  outcome ε := by
    show (pure (.ok v) : Run ε Outcome) = Run.attempt ((Form.sym x).evalAt _ (scope.bind x v))
    rw [Form.evalAt_sym x _ _ (Scope.lookup_bind_self scope x v)]
    rfl

/-- The elements of a search, and the iterations of a traversal that binds them to a name that is
not mentioned, are gathered alike. -/
theorem gather_elements_rel (he : a.expected.Omits x) (site : Site) (items : List Value) :
    Run.Rel (List.Forall₂ (Variation.unannotated engine x).EventAlike)
      (Search.eventsOf (engine.eventsUnder a.expected)
        { a.check site scope with subject := .form collection } items)
      (Item.gather (fun i => (Plan.ofExpected a.expected).expand
          (Plan.iterationCheck (a.check site scope) [.eachNamed x collection] (.sym x) i) >>= Item.runAll engine)
        (items.map (.ofElement x scope))) := by
  rw [Search.eventsOf_eq_collect, Item.gather_eq_collect, Run.collect_map]
  have hplan : (Plan.ofExpected a.expected).Within (Variation.unannotated engine x).forms :=
    Plan.ofExpected_within omits_inherited he
  refine Run.collect_rel_same (fun v => ?_) items
  have halike := element_alike engine scope x collection he site v
  exact (Variation.expand_alike _ hplan halike).bind fun is is' hi => Variation.runAll_alike hi

/-- The iterations for values without probes are expanded alike whenever they are. -/
theorem steady_iterations (he : Invariant.silent.OfForm a.expected) (hs : Invariant.silent.OfScope scope)
    (site : Site) {items : List Value} (hi : Invariant.silent.OfItems items) :
    ∀ i ∈ items.map (Iteration.ofElement x scope), ∃ r, ∀ s,
      (Plan.ofExpected a.expected).expand
        (Plan.iterationCheck (a.check site scope) [.eachNamed x collection] (.sym x) i) s = (r, s) := by
  intro i hmem
  obtain ⟨v, hv, rfl⟩ := List.mem_map.1 hmem
  refine Invariant.expand_steady (Plan.ofExpected_within Invariant.inherited he) ⟨he, trivial, ?_⟩
  exact ⟨Invariant.ofItems_iff.1 hi v hv, hs⟩

variable {x collection}

/-- Elevated events, and the events of a run with the same results as one with like events, are
reported together, and are the same once elevated, messages apart. -/
theorem elevate_agrees {searched gathered traversed : Checking (List Event)}
    (hrel : Run.Rel (List.Forall₂ (Variation.unannotated engine x).EventAlike) searched gathered)
    (hsame : gathered.SameResults traversed) (s : Effects) :
    ((∃ events, ((do return elevate (← searched)) s).1 = .ok events) ↔ ∃ events, (traversed s).1 = .ok events) ∧
      ∀ events found, ((do return elevate (← searched)) s).1 = .ok events → (traversed s).1 = .ok found →
        events.map Event.withoutMessage = (elevate found).map Event.withoutMessage := by
  rcases (hrel s).cases with ⟨es, es', t, hes, hes', halike⟩ | ⟨e, t, hes, hes'⟩
  · rw [Run.bind_of_ok hes, (hsame s t es').1 hes']
    refine ⟨⟨fun _ => ⟨_, rfl⟩, fun _ => ⟨_, rfl⟩⟩, ?_⟩
    rintro _ _ ⟨⟩ ⟨⟩
    exact Variation.withoutMessage_eq trivial (Variation.elevate_alike halike)
  · -- The search stops at an element, so the traversal stops at it or, expanding, at a later one.
    rw [Run.bind_of_error hes]
    refine ⟨⟨?_, ?_⟩, ?_⟩
    · rintro ⟨_, ⟨⟩⟩
    · rintro ⟨found, hfound⟩
      have hgather := (hsame s _ found).2 (Prod.ext hfound rfl)
      rw [hes'] at hgather
      cases hgather
    · rintro _ _ ⟨⟩

end Engine

end Attest
