import Attest.Proofs.Comprehension
import Attest.Proofs.Nesting
/-!
# Nested traversals

The clauses of two traversals, one behind the other, walk like nested loops: what the first clauses
lead to is what the second ones start from (`Traversal.walk_append`). So a traversal whose body is a
traversal checks the same things in the same order as one that has the clauses of both, and only
the messages tell which it was (`Engine.check_fromEach_append`).
-/

namespace Attest

namespace Run

variable {ε α β γ : Type}

/-- A computation without effect, that ends the same whenever it is run. -/
def Steady (x : Run ε α) : Prop := ∃ r, ∀ s, x s = (r, s)

theorem steady_ofExcept (x : Except ε α) : (ofExcept x : Run ε α).Steady := by
  cases x with
  | ok a => exact ⟨.ok a, fun s => rfl⟩
  | error e => exact ⟨.error (.thrown e), fun s => rfl⟩

theorem Steady.bind {x : Run ε α} {f : α → Run ε β} (hx : x.Steady) (hf : ∀ a, x = pure a → (f a).Steady) :
    (x >>= f).Steady := by
  obtain ⟨r, hr⟩ := hx
  cases r with
  | error e => exact ⟨.error e, fun s => bind_of_error (hr s) f⟩
  | ok a =>
    obtain ⟨r, hr'⟩ := hf a (eq_pure_of_steady hr)
    exact ⟨r, fun s => by rw [bind_of_ok (hr s), hr' s]⟩

theorem collect_steady {each : α → Run ε (List β)} {as : List α} (h : ∀ a ∈ as, (each a).Steady) :
    (collect each as).Steady := by
  induction as with
  | nil => exact ⟨.ok [], fun s => rfl⟩
  | cons a as ih =>
    obtain ⟨hhead, htail⟩ := List.forall_mem_cons.1 h
    exact hhead.bind fun first _ => (ih htail).bind fun rest _ => ⟨.ok (first ++ rest), fun s => rfl⟩

theorem eq_of_pure_eq {a b : α} (h : (pure a : Run ε α) = pure b) : a = b := by
  have happly := congrFun h {}
  cases happly
  rfl

theorem eq_ok_of_ofExcept {x : Except ε α} {a : α} (h : (ofExcept x : Run ε α) = pure a) : x = .ok a := by
  cases x with
  | error e => cases congrFun h {}
  | ok b => rw [eq_of_pure_eq h]

/-- A steady first part of a sequence that is a result is one itself. -/
theorem exists_of_bind_eq_pure {x : Run ε α} {f : α → Run ε β} {b : β} (hx : x.Steady) (h : x >>= f = pure b) :
    ∃ a, x = pure a ∧ f a = pure b := by
  obtain ⟨r, hr⟩ := hx
  cases r with
  | error e =>
    have happly := congrFun h {}
    rw [bind_of_error (hr {})] at happly
    cases happly
  | ok a =>
    have hpure := eq_pure_of_steady hr
    rw [hpure, pure_bind] at h
    exact ⟨a, hpure, h⟩

theorem exists_of_map_eq_pure {x : Run ε α} {f : α → β} {b : β} (hx : x.Steady) (h : f <$> x = pure b) :
    ∃ a, x = pure a ∧ f a = b := by
  rw [map_eq_pure_bind] at h
  obtain ⟨a, ha, hb⟩ := exists_of_bind_eq_pure hx h
  exact ⟨a, ha, eq_of_pure_eq hb⟩

/-- If what is collected from steady parts is a result, each of them is one. -/
theorem exists_of_collect_eq_pure {each : α → Run ε (List β)} {as : List α} {bs : List β}
    (hsteady : ∀ a ∈ as, (each a).Steady) (h : collect each as = pure bs) : ∀ a ∈ as, ∃ part, each a = pure part := by
  induction as generalizing bs with
  | nil => exact nofun
  | cons a as ih =>
    obtain ⟨hhead, htail⟩ := List.forall_mem_cons.1 hsteady
    obtain ⟨part, hpart, h⟩ := exists_of_bind_eq_pure hhead h
    obtain ⟨rest, hrest, -⟩ := exists_of_bind_eq_pure (collect_steady htail) h
    exact List.forall_mem_cons.2 ⟨⟨part, hpart⟩, ih htail hrest⟩

/-- Collecting in two rounds, where each part of the first round is known. -/
theorem collect_collect {outer : α → Run ε (List β)} {inner : β → Run ε (List γ)} {each : α → Run ε (List γ)}
    {as : List α} (h : ∀ a ∈ as, ∃ bs, outer a = pure bs ∧ collect inner bs = each a) :
    ∃ bs, collect outer as = pure bs ∧ collect inner bs = collect each as := by
  induction as with
  | nil => exact ⟨[], rfl, rfl⟩
  | cons a as ih =>
    obtain ⟨hhead, htail⟩ := List.forall_mem_cons.1 h
    obtain ⟨first, hfirst, hinner⟩ := hhead
    obtain ⟨rest, hrest, hcollect⟩ := ih htail
    refine ⟨first ++ rest, ?_, ?_⟩
    · simp only [collect, hfirst, hrest, pure_bind]
    · rw [collect_append, hinner, hcollect]
      rfl

end Run

/-- An iteration of an inner loop, told after what the outer loops bound. -/
def Iteration.behind (bound : List String) (i : Iteration) : Iteration := ⟨i.scope, bound ++ i.bound⟩

namespace Traversal

variable {scope : Scope} {clauses inner : List Clause}

/-! ## Walking nested loops -/

theorem siteAfter_append (site : Site) (cs ds : List Clause) :
    siteAfter site (cs ++ ds) = siteAfter (siteAfter site cs) ds := List.foldl_append

/-- What was bound before is told first, and nothing else depends on it. -/
theorem walk_bound (clauses : List Clause) (site : Site) (scope : Scope) (before bound : List String) :
    walk clauses site scope (before ++ bound) = List.map (.behind before) <$> walk clauses site scope bound := by
  induction clauses generalizing site scope bound with
  | nil => rfl
  | cons clause rest ih =>
    cases clause with
    | each pattern binding source =>
      simp only [walk, map_bind, forEach_eq_collect, Run.map_collect]
      refine bind_congr fun collection => bind_congr fun elements => Run.collect_congr fun v _ => ?_
      refine bind_congr fun scope' => ?_
      rw [List.append_assoc, ih]
    | test form =>
      simp only [walk, map_bind]
      refine bind_congr fun answer => ?_
      split
      · exact ih _ _ _
      · rfl
    | bind bindings =>
      simp only [walk, map_bind]
      exact bind_congr fun scope' => ih _ _ _

theorem evalAt_silent (site : Site) (hs : Invariant.silent.OfScope scope) {form : Form}
    (hf : Invariant.silent.OfForm form) {v : Value} (h : form.evalAt site scope = pure v) :
    Invariant.silent.OfValue v :=
  (Invariant.evalAt_kept site hs hf).ok {} v {} (congrFun h {})

theorem evalAt_steady (site : Site) (hs : Invariant.silent.OfScope scope) {form : Form}
    (hf : Invariant.silent.OfForm form) : (form.evalAt site scope).Steady :=
  (Invariant.evalAt_kept site hs hf).steady id

theorem walk_silent (hc : ∀ c ∈ clauses, c.Within Invariant.silent.OfForm) (site : Site)
    (hs : Invariant.silent.OfScope scope) (bound : List String) :
    Run.Ends (¬Invariant.silent.probes) (fun is => ∀ i ∈ is, Invariant.silent.OfScope i.scope)
      Invariant.silent.discipline.Throws (walk clauses site scope bound) :=
  Discipline.walk_holds (D := Invariant.silent.discipline) Invariant.upheld hc site hs bound

theorem bindAll_silent {bindings : List (Binding × Form)} (hf : ∀ p ∈ bindings, Invariant.silent.OfForm p.2)
    (site : Site) (i : Nat) (hs : Invariant.silent.OfScope scope) :
    Run.Ends (¬Invariant.silent.probes) Invariant.silent.OfScope Invariant.silent.discipline.Throws
      (bindAll site i bindings scope) :=
  Discipline.bindAll_holds (D := Invariant.silent.discipline) Invariant.upheld hf site i hs

theorem bind_silent (binding : Binding) {v : Value} (hv : Invariant.silent.OfValue v)
    (hs : Invariant.silent.OfScope scope) {scope' : Scope} (h : binding.bind v scope = .ok scope') :
    Invariant.silent.OfScope scope' := by
  have hkept := Invariant.bind_keeps binding hv hs
  rwa [h] at hkept

theorem sourceElements_silent {source : Value} (h : Invariant.silent.OfValue source) {elements : List Value}
    (helements : sourceElements source = .ok elements) : Invariant.silent.OfItems elements := by
  have hkept := Discipline.sourceElements_keeps (D := Invariant.silent.discipline) h
  rw [helements] at hkept
  exact Invariant.ofItems_iff.2 hkept

/-- Clauses behind others are walked from what the first ones lead to. -/
theorem walk_append (hc : ∀ c ∈ clauses, c.Within Invariant.silent.OfForm)
    (hi : ∀ c ∈ inner, c.Within Invariant.silent.OfForm) (site : Site) (hs : Invariant.silent.OfScope scope)
    (bound : List String) {is : List Iteration} (h : walk (clauses ++ inner) site scope bound = pure is) :
    ∃ outer, walk clauses site scope bound = pure outer ∧
      Run.collect (fun i => walk inner (siteAfter site clauses) i.scope i.bound) outer = pure is := by
  induction clauses generalizing site scope bound is with
  | nil =>
    refine ⟨[⟨scope, bound⟩], rfl, ?_⟩
    simp only [Run.collect, pure_bind, List.append_nil, bind_pure]
    exact h
  | cons clause rest ih =>
    obtain ⟨hhead, hrest⟩ := List.forall_mem_cons.1 hc
    have hall : ∀ c ∈ rest ++ inner, c.Within Invariant.silent.OfForm := List.forall_mem_append.2 ⟨hrest, hi⟩
    rw [List.cons_append] at h
    cases clause with
    | each pattern binding source =>
      rw [walk] at h ⊢
      obtain ⟨collection, hcollection, h⟩ := Run.exists_of_bind_eq_pure (evalAt_steady _ hs hhead) h
      obtain ⟨elements, helements, h⟩ := Run.exists_of_bind_eq_pure (Run.steady_ofExcept _) h
      have hvalues := sourceElements_silent (evalAt_silent _ hs hhead hcollection) (Run.eq_ok_of_ofExcept helements)
      have hscope : ∀ v ∈ elements, ∀ scope', (Run.ofExcept (binding.bind v scope) : Eval Scope) = pure scope' →
          Invariant.silent.OfScope scope' := by
        intro v hv scope' hscope'
        exact bind_silent binding (Invariant.ofItems_iff.1 hvalues v hv) hs (Run.eq_ok_of_ofExcept hscope')
      rw [hcollection, pure_bind, helements, pure_bind, forEach_eq_collect]
      rw [forEach_eq_collect] at h
      -- Each element is walked on its own, so the rest of the outer clauses is known for each.
      rw [← h]
      refine Run.collect_collect fun v hv => ?_
      obtain ⟨part, hpart⟩ := Run.exists_of_collect_eq_pure (fun v hv =>
        (Run.steady_ofExcept _).bind fun scope' hscope' =>
          (walk_silent hall _ (hscope v hv scope' hscope') _).steady id) h v hv
      obtain ⟨scope', hscope', hwalk⟩ := Run.exists_of_bind_eq_pure (Run.steady_ofExcept _) hpart
      obtain ⟨outer, houter, hinner⟩ := ih hrest _ (hscope v hv scope' hscope') _ hwalk
      refine ⟨outer, ?_, hinner.trans hpart.symm⟩
      rw [hscope', pure_bind]
      exact houter
    | test form =>
      rw [walk] at h ⊢
      obtain ⟨answer, hanswer, h⟩ := Run.exists_of_bind_eq_pure (evalAt_steady _ hs hhead) h
      rw [hanswer, pure_bind]
      by_cases htrue : answer.isTruthy = true
      · rw [if_pos htrue] at h ⊢
        exact ih hrest _ hs bound h
      · rw [if_neg htrue] at h ⊢
        exact ⟨[], rfl, h⟩
    | bind bindings =>
      rw [walk] at h ⊢
      have hbind := bindAll_silent hhead site.subject 0 hs
      obtain ⟨scope', hscope', h⟩ := Run.exists_of_bind_eq_pure (hbind.steady id) h
      rw [hscope', pure_bind]
      exact ih hrest _ (hbind.ok {} _ {} (congrFun hscope' {})) bound h

end Traversal

/-! ## Expanding nested traversals -/

/-- Two runs in one scope, with any messages. -/
def Variation.unmarked (engine : Engine) : Variation where
  __ := same engine
  messages _ _ := True
  context _ _ := trivial
  reason _ _ := trivial

namespace Plan

variable {engine : Engine} {next : Plan} {c : Check} {clauses inner : List Clause}

/-- An iteration of the inner traversal checks what the one with all clauses does. -/
theorem iterationCheck_behind (c : Check) (clauses inner : List Clause) (body nested : Form) (i j : Iteration) :
    (Variation.unmarked engine).CheckAlike (iterationCheck c (clauses ++ inner) body (j.behind i.bound))
      (iterationCheck (iterationCheck c clauses nested i) inner body j) where
  expected := rfl
  form := trivial
  scope := rfl
  raise := rfl
  label _ := rfl
  message := trivial
  site := Traversal.siteAfter_append c.site clauses inner
  outcome ε := by
    unfold Check.outcome iterationCheck
    simp only [Traversal.siteAfter_append, Iteration.behind]

theorem expand_perElement_of_walk {body : Form} {iterations : List Iteration}
    (h : Traversal.walk clauses c.site c.scope [] = pure iterations) :
    (Plan.perElement clauses body next).expand c =
      Run.collect (fun i => next.expand (iterationCheck c clauses body i)) iterations := by
  simp only [Plan.expand]
  rw [h, ← expandIterations_eq_collect]
  rfl

variable (hnext : next.Within (Variation.unmarked engine).forms)

include hnext in
/-- The iterations of all clauses are expanded like those of the inner ones within those of the outer
ones. -/
theorem expand_behind (body nested : Form) (hi : ∀ c ∈ inner, c.Within Invariant.silent.OfForm)
    {outer is : List Iteration} (hs : ∀ i ∈ outer, Invariant.silent.OfScope i.scope)
    (h : Run.collect (fun i => Traversal.walk inner (Traversal.siteAfter c.site clauses) i.scope i.bound) outer =
      pure is) :
    Run.Rel (List.Forall₂ (Variation.unmarked engine).ItemAlike)
      (Run.collect (fun k => next.expand (iterationCheck c (clauses ++ inner) body k)) is)
      (Run.collect (fun i => (Plan.perElement inner body next).expand (iterationCheck c clauses nested i)) outer) := by
  induction outer generalizing is with
  | nil =>
    rw [← Run.eq_of_pure_eq h]
    exact .pure .nil
  | cons i outer ih =>
    obtain ⟨hscope, hscopes⟩ := List.forall_mem_cons.1 hs
    have hsteady : ∀ {scope}, Invariant.silent.OfScope scope → ∀ bound,
        (Traversal.walk inner (Traversal.siteAfter c.site clauses) scope bound).Steady :=
      fun hscope bound => (Traversal.walk_silent hi _ hscope bound).steady id
    rw [Run.collect] at h
    obtain ⟨first, hfirst, h⟩ := Run.exists_of_bind_eq_pure (hsteady hscope _) h
    obtain ⟨rest, hrest, h⟩ :=
      Run.exists_of_bind_eq_pure (Run.collect_steady fun j hj => hsteady (hscopes j hj) _) h
    -- Among all clauses the inner ones tell what the outer ones bound first; on their own they start
    -- from nothing.
    have hbound := Traversal.walk_bound inner (Traversal.siteAfter c.site clauses) i.scope i.bound []
    rw [List.append_nil, hfirst] at hbound
    obtain ⟨js, hjs, rfl⟩ := Run.exists_of_map_eq_pure (hsteady hscope []) hbound.symm
    have hhead : Run.Rel (List.Forall₂ (Variation.unmarked engine).ItemAlike)
        (Run.collect (fun k => next.expand (iterationCheck c (clauses ++ inner) body k)) (js.map (.behind i.bound)))
        ((Plan.perElement inner body next).expand (iterationCheck c clauses nested i)) := by
      rw [expand_perElement_of_walk (c := iterationCheck c clauses nested i) hjs]
      rw [Run.collect_map]
      refine Run.collect_rel_same (fun j => ?_) js
      exact Variation.expand_alike next hnext (iterationCheck_behind c clauses inner body nested i j)
    rw [← Run.eq_of_pure_eq h, Run.collect_append]
    refine hhead.bind fun items items' hitems => (ih hscopes hrest).bind fun others others' hothers => ?_
    exact .pure (List.rel_append hitems hothers)

end Plan

/-! ## Reading the clauses of both -/

/-- The actual form that goes through clauses. -/
def Form.fromEach (clauses : List Form) (body : Form) : Form :=
  .list [.sym "from-each", .vector clauses, body]

theorem pairUp?_append {α : Type} {xs ys : List α} {ps qs : List (α × α)} (hx : pairUp? xs = some ps)
    (hy : pairUp? ys = some qs) : pairUp? (xs ++ ys) = some (ps ++ qs) := by
  rw [← flatten_of_pairUp? hx, ← flatten_of_pairUp? hy, ← List.flatMap_append]
  exact pairUp?_flatten _

theorem mapM_eq_ok_iff {ε α β : Type} {f : α → Except ε β} {xs : List α} {ys : List β} :
    xs.mapM f = .ok ys ↔ List.Forall₂ (fun x y => f x = .ok y) xs ys := by
  induction xs generalizing ys with
  | nil =>
    rw [List.mapM_nil, List.forall₂_nil_left_iff]
    exact ⟨fun h => (Except.ok.inj h).symm, fun h => congrArg Except.ok h.symm⟩
  | cons x xs ih =>
    rw [List.mapM_cons]
    constructor
    · intro h
      obtain ⟨y, hy, h⟩ := exists_of_bind_ok h
      obtain ⟨rest, hrest, h⟩ := exists_of_bind_ok h
      cases h
      exact .cons hy (ih.1 hrest)
    · intro h
      cases h with
      | cons hy hrest => rw [hy, ih.2 hrest]; rfl

namespace Traversal

variable {form form' body nested : Form} {items others : List Form} {clauses inner : List Clause}

/-- Of the whole traversal, a clause takes nothing but the form at fault. -/
theorem parseClause_congr {target value : Form} {clause : Clause} (h : parseClause form target value = .ok clause)
    (form' : Form) : parseClause form' target value = .ok clause := by
  unfold parseClause at h ⊢
  split at h
  · exact h
  · split at h
    · exact h
    · cases h
  · cases h
  · exact h

theorem parseClauses_eq_ok_iff : parseClauses form items = .ok clauses ↔
    ∃ pairs, pairUp? items = some pairs ∧
      List.Forall₂ (fun p c => parseClause form p.1 p.2 = .ok c) pairs clauses ∧
      clauses.head?.any Clause.isEach = true := by
  constructor
  · intro h
    obtain ⟨pairs, hpairs, h⟩ := exists_of_bind_ok h
    obtain ⟨read, hread, h⟩ := exists_of_bind_ok h
    split at h
    · next hhead =>
      cases h
      exact ⟨pairs, Grouping.pairUp?_of_formPairs hpairs, mapM_eq_ok_iff.1 hread, hhead⟩
    · cases h
  · rintro ⟨pairs, hpairs, hread, hhead⟩
    have hmap : pairs.mapM (fun p => parseClause form p.1 p.2) = .ok clauses := mapM_eq_ok_iff.2 hread
    simp only [parseClauses, formPairs, hpairs]
    show (pairs.mapM (fun p => parseClause form p.1 p.2) >>= fun clauses =>
      if clauses.head?.any Clause.isEach then pure clauses else throw _) = _
    rw [hmap]
    exact if_pos hhead

theorem parseClauses_congr (h : parseClauses form items = .ok clauses) (form' : Form) :
    parseClauses form' items = .ok clauses := by
  obtain ⟨pairs, hpairs, hread, hhead⟩ := parseClauses_eq_ok_iff.1 h
  exact parseClauses_eq_ok_iff.2 ⟨pairs, hpairs, hread.imp fun p c hc => parseClause_congr hc form', hhead⟩

theorem parseClauses_append (h : parseClauses form items = .ok clauses) (h' : parseClauses form' others = .ok inner)
    (whole : Form) : parseClauses whole (items ++ others) = .ok (clauses ++ inner) := by
  obtain ⟨ps, hps, hclauses, hhead⟩ := parseClauses_eq_ok_iff.1 h
  obtain ⟨qs, hqs, hinner, -⟩ := parseClauses_eq_ok_iff.1 h'
  refine parseClauses_eq_ok_iff.2 ⟨ps ++ qs, pairUp?_append hps hqs, ?_, ?_⟩
  · exact List.rel_append (hclauses.imp fun p c hc => parseClause_congr hc whole)
      (hinner.imp fun p c hc => parseClause_congr hc whole)
  · cases clauses with
    | nil => cases hhead
    | cons c cs => exact hhead

theorem parseFromEach_eq_ok_iff : parseFromEach (.fromEach items body) = .ok (.perElement clauses nested) ↔
    parseClauses (.fromEach items body) items = .ok clauses ∧ body = nested := by
  have hparse : parseFromEach (.fromEach items body) =
      (do return .perElement (← parseClauses (.fromEach items body) items) body) := rfl
  rw [hparse]
  cases parseClauses (.fromEach items body) items with
  | error d => exact iff_of_false nofun nofun
  | ok cs =>
    show Except.ok (Traversal.perElement cs body) = _ ↔ _
    simp

theorem parse?_of_parseClauses (h : parseClauses form items = .ok clauses) (body : Form) :
    parse? (.fromEach items body) = some (.ok (.perElement clauses body)) :=
  congrArg some (parseFromEach_eq_ok_iff.2 ⟨parseClauses_congr h _, rfl⟩)

end Traversal

/-! ## Checking nested traversals -/

namespace Engine

variable {a : Assertion} {scope : Scope} {items others : List Form} {clauses inner : List Clause} {body : Form}

theorem plan_fromEach {form : Form} (h : Traversal.parseClauses form items = .ok clauses) (body : Form) :
    Assertion.plan { a with actual := .fromEach items body } =
      .perElement clauses body (.around (.ofExpected a.expected) body) := by
  unfold Assertion.plan Plan.ofForms
  rw [Plan.around_eq, Traversal.parse?_of_parseClauses h]

/-- A traversal whose clauses can be walked checks its iterations. -/
theorem checkAt_fromEach (engine : Engine) (a : Assertion) {form : Form}
    (h : Traversal.parseClauses form items = .ok clauses) (body : Form) {site : Site}
    {iterations : List Iteration} (hwalk : Traversal.walk clauses site scope [] = pure iterations) :
    engine.checkAt { a with actual := .fromEach items body } site scope =
      Run.collect (fun i => (Plan.around (.ofExpected a.expected) body).expand
        (Plan.iterationCheck (a.check site scope) clauses body i)) iterations >>= Item.runAll engine := by
  unfold checkAt Assertion.expandAt
  rw [plan_fromEach h]
  exact congrArg (· >>= Item.runAll engine)
    (Plan.expand_perElement_of_walk (c := Assertion.check { a with actual := .fromEach items body } site scope) hwalk)

end Engine

end Attest
