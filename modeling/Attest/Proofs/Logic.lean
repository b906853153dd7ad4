import Attest.Eval.Call
import Attest.Proofs.Computation
import Attest.Proofs.Discipline
import Attest.Value.Nodes
/-!
# Evaluation within a discipline

A `Run.Logic` is a way to say how computations end that passes through sequencing. Under every
logic, evaluation keeps to every discipline, because each of its steps does: one step of
evaluating a form (`Discipline.step_holds`) if forms with fewer nodes do, and one step of a call
(`Discipline.callStep_holds`) if the calls that it makes do. Where probes keep to it as well and
all closures are covered, evaluation does to any depth (`Discipline.holds_of_depth`).
-/

namespace Attest

/-- A way to say of computations, one for each `i`, that they end with what is `P` or throw what
is `E`. -/
structure Run.Logic (ι : Type) where
  Holds : {ε α : Type} → (α → Prop) → (ε → Prop) → (ι → Run ε α) → Prop
  pure : ∀ {ε α : Type} {P : α → Prop} {E : ε → Prop} {a : α}, P a → Holds P E fun _ => Pure.pure a
  raise : ∀ {ε α : Type} {P : α → Prop} {E : ε → Prop} {e : ε}, E e → Holds P E fun _ => Run.raise e
  mono : ∀ {ε α : Type} {P P' : α → Prop} {E E' : ε → Prop} {x : ι → Run ε α}, Holds P E x →
    (∀ a, P a → P' a) → (∀ e, E e → E' e) → Holds P' E' x
  bind : ∀ {ε α β : Type} {P : α → Prop} {Q : β → Prop} {E : ε → Prop} {x : ι → Run ε α}
    {f : ι → α → Run ε β}, Holds P E x → (∀ a, P a → Holds Q E fun i => f i a) →
    Holds Q E fun i => x i >>= f i
  /-- What is thrown becomes a result. -/
  attempt : ∀ {ε δ α : Type} {P : α → Prop} {E : ε → Prop} {F : δ → Prop} {x : ι → Run ε α},
    Holds P E x →
      Holds (fun r => (∀ a, r = .ok a → P a) ∧ ∀ e, r = .error e → E e) F fun i => Run.attempt (x i)
  widen : ∀ {ε α : Type} {P : α → Prop} {F : Empty → Prop} {E : ε → Prop} {x : ι → Run Empty α},
    Holds P F x → Holds P E fun i => Run.widen (x i)

namespace Run.Logic

variable {ι ε α : Type} {P : α → Prop} {E : ε → Prop} (L : Run.Logic ι)

theorem ofExcept {x : Except ε α} (hok : ∀ a, x = .ok a → P a) (herr : ∀ e, x = .error e → E e) :
    L.Holds P E fun _ => Run.ofExcept x := by
  cases x with
  | ok a => exact L.pure (hok a rfl)
  | error e => exact L.raise (herr e rfl)

theorem ite {c : Prop} [Decidable c] {x y : ι → Run ε α} (hx : c → L.Holds P E x) (hy : ¬c → L.Holds P E y) :
    L.Holds P E fun i => if c then x i else y i := by
  by_cases h : c
  · simp only [if_pos h]
    exact hx h
  · simp only [if_neg h]
    exact hy h

end Run.Logic

namespace Discipline

variable {ι : Type} (D : Discipline) (L : Run.Logic ι)

/-- In every scope that there may be, a form evaluates to a value that there may be. -/
def Evaluates (ev : ι → Evaluator) (form : Form) : Prop :=
  ∀ site {scope}, D.scopes scope → L.Holds D.values D.Throws fun i => ev i site scope form

/-- Calling a function with some arguments gives a value that there may be. -/
def Calls (call : ι → Builtin.Caller) (f : Value) (args : List Value) : Prop :=
  ∀ site, L.Holds D.values D.Throws fun i => call i site f args

variable {D L}

theorem Keeps.holds {α : Type} {P : α → Prop} {x : Except Thrown α} (h : D.Keeps P x) :
    L.Holds P D.Throws fun _ => Run.ofExcept x :=
  L.ofExcept (fun a ha => by rw [ha] at h; exact h) fun t ht => by rw [ht] at h; exact h

theorem raise_holds {α : Type} {P : α → Prop} (c : ErrorClass) (m : String) :
    L.Holds P D.Throws fun _ => Run.raise ⟨c, m, none⟩ := L.raise (throws_plain c m)

/-! ## Forms -/

section Evaluator

variable {ev : ι → Evaluator} {call : ι → Builtin.Caller} {scope : Scope}

theorem evalItems_holds {forms : List Form} (hev : ∀ f ∈ forms, D.Evaluates L ev f) (site : Site)
    (hs : D.scopes scope) (k : Nat) : L.Holds D.All D.Throws fun i => evalItems (ev i) site scope k forms := by
  induction forms generalizing k with
  | nil => exact L.pure nofun
  | cons f fs ih =>
    obtain ⟨hf, hfs⟩ := List.forall_mem_cons.1 hev
    simp only [evalItems]
    refine L.bind (hf _ hs) fun v hv => L.bind (ih hfs (k + 1)) fun vs hvs => ?_
    exact L.pure (all_cons hv hvs)

theorem evalEntries_holds {forms : List (Form × Form)}
    (hev : ∀ e ∈ forms, D.Evaluates L ev e.1 ∧ D.Evaluates L ev e.2) (site : Site) (hs : D.scopes scope)
    (k : Nat) {done : List (Value × Value)} (hd : D.values (.map done)) :
    L.Holds (fun es => D.values (.map es)) D.Throws fun i => evalEntries (ev i) site scope k done forms := by
  induction forms generalizing k done with
  | nil => exact L.pure hd
  | cons e rest ih =>
    obtain ⟨key, value⟩ := e
    obtain ⟨⟨hkey, hvalue⟩, hrest⟩ := List.forall_mem_cons.1 hev
    simp only [evalEntries]
    refine L.bind (hkey _ hs) fun k hk => L.bind (hvalue _ hs) fun v hv => ?_
    exact ih hrest _ (D.put hd hk hv)

theorem evalBody_holds {forms : List Form} (hev : ∀ f ∈ forms, D.Evaluates L ev f) (site : Site)
    (hs : D.scopes scope) (k : Nat) :
    L.Holds D.values D.Throws fun i => evalBody (ev i) site scope k forms :=
  L.bind (evalItems_holds hev site hs k) fun _ hvs => L.pure (values_getLast? hvs)

theorem evalIf_holds {args : List Form} (hev : ∀ f ∈ args, D.Evaluates L ev f) (site : Site)
    (hs : D.scopes scope) : L.Holds D.values D.Throws fun i => evalIf (ev i) site scope args := by
  unfold evalIf
  match args, hev with
  | [test, yes], hev =>
    refine L.bind (hev test (by simp) _ hs) fun c _ => L.ite (fun _ => ?_) fun _ => ?_
    · exact hev yes (by simp) _ hs
    · exact L.pure values_nil
  | [test, yes, no], hev =>
    refine L.bind (hev test (by simp) _ hs) fun c _ => L.ite (fun _ => ?_) fun _ => ?_
    · exact hev yes (by simp) _ hs
    · exact hev no (by simp) _ hs
  | [], _ => exact raise_holds _ _
  | [_], _ => exact raise_holds _ _
  | _ :: _ :: _ :: _ :: _, _ => exact raise_holds _ _

theorem evalBindings_holds {pairs : List (Form × Form)} (hev : ∀ p ∈ pairs, D.Evaluates L ev p.2)
    (site : Site) (k : Nat) (hs : D.scopes scope) :
    L.Holds D.scopes D.Throws fun i => evalBindings (ev i) site k pairs scope := by
  induction pairs generalizing k scope with
  | nil => exact L.pure hs
  | cons p rest ih =>
    obtain ⟨target, value⟩ := p
    obtain ⟨hvalue, hrest⟩ := List.forall_mem_cons.1 hev
    simp only [evalBindings]
    cases Binding.parse target with
    | error e => exact raise_holds _ _
    | ok b =>
      refine L.bind (hvalue _ hs) fun v hv => L.bind (bind_keeps b hv hs).holds fun inner hi => ?_
      exact ih hrest (k + 1) hi

theorem evalLet_holds {args : List Form} (hev : ∀ f ∈ args, D.Evaluates L ev f)
    (hbindings : ∀ items, .vector items ∈ args → ∀ f ∈ items, D.Evaluates L ev f) (site : Site)
    (hs : D.scopes scope) : L.Holds D.values D.Throws fun i => evalLet (ev i) site scope args := by
  have hrefused : L.Holds D.values D.Throws fun _ => refuse "let requires a binding vector" := raise_holds _ _
  cases args with
  | nil => exact hrefused
  | cons first body =>
    cases first with
    | vector items =>
      have hitems := hbindings items List.mem_cons_self
      simp only [evalLet]
      cases hp : pairUp? items with
      | none => exact raise_holds _ _
      | some pairs =>
        have hpairs : ∀ p ∈ pairs, D.Evaluates L ev p.2 := fun p hmem =>
          hitems _ (flatten_of_pairUp? hp ▸ List.mem_flatMap.2 ⟨p, hmem, by simp⟩)
        refine L.bind (evalBindings_holds hpairs _ 1 hs) fun inner hi => ?_
        exact evalBody_holds (List.forall_mem_cons.1 hev).2 _ hi 0
    | _ => exact hrefused

theorem evalFn_holds {args : List Form} (hf : D.forms (.list (.sym "fn" :: args))) (site : Site)
    (hs : D.scopes scope) : L.Holds D.values D.Throws fun _ => evalFn site scope args := by
  unfold evalFn
  split
  · exact raise_holds _ _
  · split
    · exact L.pure (D.function hs hf site _)
    · exact raise_holds _ _
  · exact raise_holds _ _

/-- Placing steps leaves them as they are. -/
theorem mem_of_mem_stepSites {site : Site} {last : Bool} {steps : List Form} {p : Form × Site}
    (h : p ∈ (stepSites site last steps).2) : p.1 ∈ steps := by
  induction steps with
  | nil => cases h
  | cons step rest ih =>
    rcases List.mem_cons.1 h with rfl | h
    · exact List.mem_cons_self
    · exact List.mem_cons_of_mem _ (ih h)

theorem evalSteps_holds {steps : List (Form × Site)} (t : Threading)
    (hev : ∀ p ∈ steps, ∀ v, D.values v → D.Evaluates L ev (threadStep p.1 v t.last)) (hs : D.scopes scope)
    {acc : Value} (ha : D.values acc) :
    L.Holds D.values D.Throws fun i => evalSteps (ev i) scope t acc steps := by
  induction steps generalizing acc with
  | nil => exact L.pure ha
  | cons p rest ih =>
    obtain ⟨step, site⟩ := p
    obtain ⟨hstep, hrest⟩ := List.forall_mem_cons.1 hev
    simp only [evalSteps]
    refine L.ite (fun _ => L.pure values_nil) fun _ => ?_
    exact L.bind (hstep acc ha site hs) fun acc ha => ih hrest ha

theorem evalThread_holds {args : List Form} (hev : ∀ f ∈ args, D.Evaluates L ev f)
    (hsteps : ∀ f ∈ args.tail, ∀ v, D.values v → ∀ last, D.Evaluates L ev (threadStep f v last)) (site : Site)
    (hs : D.scopes scope) (op : String) :
    L.Holds D.values D.Throws fun i => evalThread (ev i) site scope op args := by
  cases args with
  | nil => exact raise_holds _ _
  | cons first steps =>
    refine L.bind (hev first List.mem_cons_self _ hs) fun acc ha => evalSteps_holds _ (fun p hp v hv => ?_) hs ha
    exact hsteps _ (mem_of_mem_stepSites hp) v hv _

theorem evalCall_holds {head : Form} {args : List Form} (hev : ∀ f ∈ head :: args, D.Evaluates L ev f)
    (hcall : ∀ f args, D.values f → D.All args → D.Calls L call f args) (site : Site) (hs : D.scopes scope) :
    L.Holds D.values D.Throws fun i => evalCall (ev i) (call i) site scope head args := by
  obtain ⟨hhead, hargs⟩ := List.forall_mem_cons.1 hev
  refine L.bind (hhead _ hs) fun f hf => L.bind (evalItems_holds hargs _ hs 1) fun vs hvs => ?_
  exact hcall f vs hf hvs _

/-- Four names make special forms. -/
theorem evalList_of_name {ev : Evaluator} {call : Builtin.Caller} {site : Site} {scope : Scope} {name : String}
    (h : name ∉ ["do", "if", "let", "fn"]) (args : List Form) :
    evalList ev call site scope (.sym name) args =
      if isThreading name && (scope.lookup name).isNone then evalThread ev site scope name args
      else evalCall ev call site scope (.sym name) args := by
  unfold evalList
  split <;> simp_all

/-- A call by a name that is bound evaluates its arguments only, from the first to the last. -/
theorem eval_call_of_lookup {scope : Scope} {name : String} {f : Value} (h : name ∉ ["do", "if", "let", "fn"])
    (hf : scope.lookup name = some f) (depth : Nat) (site : Site) (args : List Form) :
    eval (depth + 2) site scope (.list (.sym name :: args)) =
      evalItems (eval (depth + 1)) site.operands scope 1 args >>= apply (depth + 1) site.body f := by
  have hhead : eval (depth + 1) (site.operands.at 0) scope (.sym name) = pure f := by
    rw [eval, Form.step, hf]
  show evalList (eval (depth + 1)) (apply (depth + 1)) site scope (.sym name) args = _
  rw [evalList_of_name h, hf, Option.isNone_some, Bool.and_false, if_neg Bool.false_ne_true, evalCall, hhead,
    pure_bind]

theorem nodes_threadStep_le (step : Form) (v : Value) (last : Bool) :
    (threadStep step v last).nodes ≤ step.nodes + 2 := by
  unfold threadStep
  split
  · split <;> simp only [Form.nodes, nodesOf, nodesOf_append, List.cons_append] <;> omega
  · simp only [Form.nodes, nodesOf]
    omega

theorem evalList_holds {head : Form} {args : List Form} (hf : D.forms (.list (head :: args)))
    (hev : ∀ f, D.forms f → f.nodes < (Form.list (head :: args)).nodes → D.Evaluates L ev f)
    (hcall : ∀ f args, D.values f → D.All args → D.Calls L call f args) (site : Site) (hs : D.scopes scope) :
    L.Holds D.values D.Throws fun i => evalList (ev i) (call i) site scope head args := by
  have hhead : D.Evaluates L ev head := by
    refine hev head (D.head hf) ?_
    simp only [Form.nodes, nodesOf]
    omega
  have hargs : ∀ f ∈ args, D.Evaluates L ev f := by
    intro f hmem
    have := nodes_le_nodesOf hmem
    refine hev f (D.args hf f hmem) ?_
    simp only [Form.nodes, nodesOf]
    omega
  have hcalled := evalCall_holds (List.forall_mem_cons.2 ⟨hhead, hargs⟩) hcall site hs
  cases head with
  | sym name =>
    by_cases hspecial : name ∈ ["do", "if", "let", "fn"]
    · simp only [List.mem_cons, List.not_mem_nil, or_false] at hspecial
      rcases hspecial with rfl | rfl | rfl | rfl
      · exact evalBody_holds hargs _ hs 1
      · exact evalIf_holds hargs _ hs
      · refine evalLet_holds hargs (fun items hmem f hitem => ?_) _ hs
        have := nodes_le_nodesOf hmem
        have := nodes_le_nodesOf hitem
        refine hev f (D.vector (D.args hf _ hmem) f hitem) ?_
        simp only [Form.nodes, nodesOf] at *
        omega
      · exact evalFn_holds hf _ hs
    · simp only [evalList_of_name hspecial]
      refine L.ite (fun _ => evalThread_holds hargs (fun f hmem v hv last => ?_) _ hs _) fun _ => hcalled
      -- What is in front of the step makes up for the value that is threaded into it.
      have hstep := D.thread (D.args hf f (List.mem_of_mem_tail hmem)) hv last
      have hlt : f.nodes < nodesOf args := by
        cases args with
        | nil => cases hmem
        | cons first steps =>
          have := nodes_le_nodesOf hmem
          have := first.nodes_pos
          simp only [List.tail_cons, nodesOf] at *
          omega
      have := nodes_threadStep_le f v last
      refine hev _ hstep ?_
      simp only [Form.nodes, nodesOf]
      omega
  | lit v => exact hcalled
  | list items => exact hcalled
  | vector items => exact hcalled
  | map entries => exact hcalled

/-- One step of evaluation keeps to the discipline if forms with fewer nodes do. -/
theorem step_holds {form : Form} (hf : D.forms form)
    (hev : ∀ f, D.forms f → f.nodes < form.nodes → D.Evaluates L ev f)
    (hcall : ∀ f args, D.values f → D.All args → D.Calls L call f args) (site : Site) (hs : D.scopes scope) :
    L.Holds D.values D.Throws fun i => form.step (ev i) (call i) site scope := by
  cases form with
  | lit v => exact L.pure (D.literal.1 hf)
  | sym name =>
    simp only [Form.step]
    cases hv : scope.lookup name with
    | none => exact raise_holds _ _
    | some v => exact L.pure (D.lookup hs hf hv)
  | vector items =>
    have hitems : ∀ f ∈ items, D.Evaluates L ev f := by
      intro f hmem
      have := nodes_le_nodesOf hmem
      refine hev f (D.vector hf f hmem) ?_
      simp only [Form.nodes]
      omega
    exact L.bind (evalItems_holds hitems _ hs 0) fun vs hvs => L.pure (values_list hvs)
  | map entries =>
    have hentries : ∀ e ∈ entries, D.Evaluates L ev e.1 ∧ D.Evaluates L ev e.2 := by
      intro e hmem
      obtain ⟨hk, hv⟩ := D.map hf e hmem
      have := nodes_add_le_nodesOfEntries hmem
      have := e.1.nodes_pos
      have := e.2.nodes_pos
      constructor
      · refine hev e.1 hk ?_
        simp only [Form.nodes]
        omega
      · refine hev e.2 hv ?_
        simp only [Form.nodes]
        omega
    exact L.bind (evalEntries_holds hentries _ hs 0 D.noEntries) fun es hes => L.pure hes
  | list items =>
    cases items with
    | nil => exact L.pure (values_list (List.forall_mem_nil _))
    | cons head args => exact evalList_holds hf hev hcall site hs

end Evaluator

/-! ## Calls -/

/-- The calls that `map`, `filter` and `reduce` make when they have some arguments. -/
structure CallsBack (D : Discipline) (L : Run.Logic ι) (call : ι → Builtin.Caller) (args : List Value) :
    Prop where
  each : ∀ {f coll}, args = [f, coll] → ∀ {x}, D.values x → D.Calls L call f [x]
  pairs : ∀ {f coll items}, args = [f, coll] → coll.elements? = some items →
    ∀ {acc}, D.values acc → ∀ x ∈ items.tail, D.Calls L call f [acc, x]
  fold : ∀ {f start coll}, args = [f, start, coll] →
    ∀ {acc}, D.values acc → ∀ {x}, D.values x → D.Calls L call f [acc, x]

section Caller

variable {ev : ι → Evaluator} {call : ι → Builtin.Caller}

theorem mapFrom_holds {f : Value} (hcall : ∀ {x}, D.values x → D.Calls L call f [x]) (site : Site) (k : Nat)
    {xs : List Value} (hx : D.All xs) :
    L.Holds D.All D.Throws fun i => Builtin.mapFrom (call i) site f k xs := by
  induction xs generalizing k with
  | nil => exact L.pure nofun
  | cons x xs ih =>
    obtain ⟨hx, hxs⟩ := List.forall_mem_cons.1 hx
    simp only [Builtin.mapFrom]
    refine L.bind (hcall hx _) fun y hy => L.bind (ih (k + 1) hxs) fun ys hys => ?_
    exact L.pure (all_cons hy hys)

theorem filterFrom_holds {f : Value} (hcall : ∀ {x}, D.values x → D.Calls L call f [x]) (site : Site) (k : Nat)
    {xs : List Value} (hx : D.All xs) :
    L.Holds D.All D.Throws fun i => Builtin.filterFrom (call i) site f k xs := by
  induction xs generalizing k with
  | nil => exact L.pure nofun
  | cons x xs ih =>
    obtain ⟨hx, hxs⟩ := List.forall_mem_cons.1 hx
    simp only [Builtin.filterFrom]
    refine L.bind (hcall hx _) fun y _ => L.bind (ih (k + 1) hxs) fun ys hys => L.pure ?_
    split
    · exact all_cons hx hys
    · exact hys

theorem reduceFrom_holds {f : Value} {xs : List Value}
    (hcall : ∀ {acc}, D.values acc → ∀ x ∈ xs, D.Calls L call f [acc, x]) (site : Site) (k : Nat)
    {acc : Value} (ha : D.values acc) :
    L.Holds D.values D.Throws fun i => Builtin.reduceFrom (call i) site f k acc xs := by
  induction xs generalizing k acc with
  | nil => exact L.pure ha
  | cons x xs ih =>
    simp only [Builtin.reduceFrom]
    refine L.bind (hcall ha x List.mem_cons_self _) fun acc ha => ?_
    exact ih (fun ha x hx => hcall ha x (List.mem_cons_of_mem _ hx)) (k + 1) ha

/-- Only five functions need more than their arguments. -/
theorem call_shapes (b : Builtin) (args : List Value) :
    (∃ f coll, b ∈ [.map, .filter, .reduce] ∧ args = [f, coll]) ∨
      (∃ f start coll, b = .reduce ∧ args = [f, start, coll]) ∨ (∃ v, b = .constantly ∧ args = [v]) ∨
      (b = .range ∧ ∃ first stop, ∀ call site, b.call call site args = makeRange first stop) ∨
      ∀ call site, b.call call site args = Run.ofExcept (b.compute args) := by
  cases b with
  | map =>
    match args with
    | [f, coll] => exact .inl ⟨f, coll, by simp, rfl⟩
    | [] | [_] | _ :: _ :: _ :: _ => exact .inr (.inr (.inr (.inr fun _ _ => rfl)))
  | filter =>
    match args with
    | [f, coll] => exact .inl ⟨f, coll, by simp, rfl⟩
    | [] | [_] | _ :: _ :: _ :: _ => exact .inr (.inr (.inr (.inr fun _ _ => rfl)))
  | reduce =>
    match args with
    | [f, coll] => exact .inl ⟨f, coll, by simp, rfl⟩
    | [f, start, coll] => exact .inr (.inl ⟨f, start, coll, rfl, rfl⟩)
    | [] | [_] | _ :: _ :: _ :: _ :: _ => exact .inr (.inr (.inr (.inr fun _ _ => rfl)))
  | constantly =>
    match args with
    | [v] => exact .inr (.inr (.inl ⟨v, rfl, rfl⟩))
    | [] | _ :: _ :: _ => exact .inr (.inr (.inr (.inr fun _ _ => rfl)))
  | range =>
    by_cases h : (∃ stop, args = [.int stop]) ∨ ∃ first stop, args = [.int first, .int stop]
    · rcases h with ⟨stop, rfl⟩ | ⟨first, stop, rfl⟩
      · exact .inr (.inr (.inr (.inl ⟨rfl, 0, stop, fun _ _ => rfl⟩)))
      · exact .inr (.inr (.inr (.inl ⟨rfl, first, stop, fun _ _ => rfl⟩)))
    · refine .inr (.inr (.inr (.inr fun call site => ?_)))
      simp only [not_or, not_exists] at h
      unfold Builtin.call
      split <;> simp_all
  | _ => exact .inr (.inr (.inr (.inr fun _ _ => rfl)))

/-- Where there is `range`, a computation may stop because there is no room for a list. -/
def Overfills (D : Discipline) (L : Run.Logic ι) : Prop :=
  D.values (.fn (.builtin .range)) → ∀ n, listCapacity < n → L.Holds D.values D.Throws fun _ => Run.stop (.room n)

theorem makeRange_holds (hfull : D.Overfills L) (hrange : D.values (.fn (.builtin .range))) (first stop : Int64) :
    L.Holds D.values D.Throws fun _ => makeRange first stop :=
  L.ite (fun _ => L.pure (values_rangeFrom first stop)) fun h => hfull hrange _ (Nat.not_le.1 h)

/-- Calling a standard function keeps to the discipline if the calls that it makes do. -/
theorem call_holds {b : Builtin} (hb : D.values (.fn (.builtin b))) {args : List Value} (h : D.All args)
    (hcall : D.CallsBack L call args) (hfull : D.Overfills L) (site : Site) :
    L.Holds D.values D.Throws fun i => b.call (call i) site args := by
  rcases call_shapes b args with
    ⟨f, coll, hb, rfl⟩ | ⟨f, start, coll, rfl, rfl⟩ | ⟨v, rfl, rfl⟩ | ⟨rfl, first, stop, hrange⟩ | hplain
  · have helements : D.Keeps (fun items => coll.elements? = some items ∧ D.All items) coll.elements := by
      unfold Value.elements
      cases he : coll.elements? with
      | none => exact throws_plain _ _
      | some items => exact ⟨rfl, all_elements? (h coll (by simp)) he⟩
    simp only [List.mem_cons, List.not_mem_nil, or_false] at hb
    rcases hb with rfl | rfl | rfl
    · refine L.bind helements.holds fun items hi => ?_
      exact L.bind (mapFrom_holds (hcall.each rfl) site 0 hi.2) fun ys hys => L.pure (values_list hys)
    · refine L.bind helements.holds fun items hi => ?_
      exact L.bind (filterFrom_holds (hcall.each rfl) site 0 hi.2) fun ys hys => L.pure (values_list hys)
    · refine L.bind helements.holds fun items hi => ?_
      exact reduceFrom_holds (hcall.pairs rfl hi.1) site 0 (values_head? hi.2)
  · refine L.bind (elements_keeps (h coll (by simp))).holds fun items hi => ?_
    exact reduceFrom_holds (fun ha x hx => hcall.fold rfl ha (hi x hx)) site 0 (h start (by simp))
  · exact L.pure (D.constantly.2 (h v (by simp)))
  · simp only [hrange]
    exact makeRange_holds hfull hb first stop
  · simp only [hplain]
    exact (compute_keeps b h).holds

theorem callClosure_holds {params : Binding} {body : List Form} {scope : Scope}
    (hev : ∀ f ∈ body, D.Evaluates L ev f) (hs : D.scopes scope) (site : Site) {args : List Value}
    (ha : D.All args) :
    L.Holds D.values D.Throws fun i => callClosure (ev i) site params body scope args := by
  have hbody : L.Holds D.values D.Throws fun i => (do
      let inner ← Run.ofExcept (params.bind (.list args) scope)
      evalBody (ev i) site inner 0 body) :=
    L.bind (bind_keeps params (values_list ha) hs).holds fun inner hi => evalBody_holds hev _ hi 0
  unfold callClosure
  cases params.arity? with
  | none => exact hbody
  | some n => exact L.ite (fun _ => hbody) fun _ => raise_holds _ _

/-- One step of a call keeps to the discipline if the calls that it makes do, and closures and
probes. -/
theorem callStep_holds {f : Value} (hf : D.values f) {args : List Value} (ha : D.All args)
    (hcall : D.CallsBack L call args) (hfull : D.Overfills L)
    (hclosure : ∀ made params body scope, f = .fn (.closure made params body scope) →
      ∀ site, L.Holds D.values D.Throws fun i => callClosure (ev i) site params body scope args)
    (hprobe : ∀ p, f = .fn (.probe p) → L.Holds D.values D.Throws fun _ => p.call args) (site : Site) :
    L.Holds D.values D.Throws fun i => f.callStep (ev i) (call i) site args := by
  have hkeyword : ∀ {target default : Value}, D.values target → D.values default →
      D.values (Value.callStep.keywordIn f target default) := by
    intro target default ht hd
    unfold Value.callStep.keywordIn
    split
    · exact values_findD (D.entries ht) f hd
    · exact hd
  cases f with
  | fn f =>
    cases f with
    | builtin b => exact call_holds hf ha hcall hfull site
    | probe p => exact hprobe p rfl
    | constantly made v => exact L.pure (D.constantly.1 hf)
    | closure made params body scope => exact hclosure made params body scope rfl site
  | keyword name =>
    match args with
    | [target] => exact L.pure (hkeyword (ha _ (by simp)) values_nil)
    | [target, default] => exact L.pure (hkeyword (ha _ (by simp)) (ha _ (by simp)))
    | [] | _ :: _ :: _ :: _ => exact raise_holds _ _
  | map entries =>
    match args with
    | [key] => exact L.pure (values_findD (D.entries hf) key values_nil)
    | [key, default] => exact L.pure (values_findD (D.entries hf) key (ha _ (by simp)))
    | [] | _ :: _ :: _ :: _ => exact raise_holds _ _
  | set items =>
    match args with
    | [x] =>
      refine L.pure ?_
      split
      · exact ha x List.mem_cons_self
      · exact values_nil
    | [] | _ :: _ :: _ => exact raise_holds _ _
  | _ => exact raise_holds _ _

end Caller

/-- A host's function keeps to the discipline if noting and counting do, and what it answers. -/
theorem probe_holds {p : Probe} {args : List Value} (ha : D.All args)
    (hnote : ∀ line, L.Holds (fun _ => True) D.Throws fun _ => Run.note line)
    (hhost : ∀ site name answers, p = .host site name answers →
      L.Holds (fun _ => True) D.Throws (fun _ => Run.countCall site) ∧ ∀ n shown, D.Keeps D.values (answers n shown)) :
    L.Holds D.values D.Throws fun _ => p.call args := by
  cases p with
  | trace => exact L.bind (hnote _) fun _ _ => L.pure (values_getLast? ha)
  | host site name answers =>
    obtain ⟨hcount, hanswers⟩ := hhost site name answers rfl
    exact L.bind hcount fun n _ => L.bind (hnote _) fun _ _ => (hanswers n _).holds

/-! ## Any depth -/

/-- Where evaluating and calling keep to disciplines that cover all closures, and the probes do, they
still do when evaluation may nest more deeply. -/
theorem holds_of_deeper {κ : Type} {D : κ → Discipline} (hD : Covers D) (hfull : ∀ k, (D k).Overfills L)
    (start : ι → Nat)
    (hstart : ∀ k, (∀ f, (D k).forms f → (D k).Evaluates L (fun i => eval (start i)) f) ∧
      ∀ f args, (D k).values f → (D k).All args → (D k).Calls L (fun i => apply (start i)) f args)
    (hprobe : ∀ k p args, (D k).values (.fn (.probe p)) → (D k).All args →
      L.Holds (D k).values (D k).Throws fun _ => p.call args) (depth : Nat) (k : κ) :
    (∀ f, (D k).forms f → (D k).Evaluates L (fun i => eval (start i + depth)) f) ∧
      ∀ f args, (D k).values f → (D k).All args → (D k).Calls L (fun i => apply (start i + depth)) f args := by
  induction depth generalizing k with
  | zero => exact hstart k
  | succ depth ih =>
    obtain ⟨hev, hcall⟩ := ih k
    constructor
    · intro form hf site scope hs
      exact step_holds hf (fun f hf _ => hev f hf) hcall site hs
    · intro f args hf ha site
      refine callStep_holds hf ha ?_ (hfull k) ?_ ?_ site
      · constructor
        · rintro g coll rfl x hx
          exact hcall g [x] (ha g (by simp)) (all_single hx)
        · rintro g coll items rfl he acc hacc x hx
          have hitems := all_elements? (ha coll (by simp)) he
          exact hcall g [acc, x] (ha g (by simp)) (all_pair hacc (hitems x (List.mem_of_mem_tail hx)))
        · rintro g start coll rfl acc hacc x hx
          exact hcall g [acc, x] (ha g (by simp)) (all_pair hacc hx)
      · rintro made params body scope rfl site
        -- The body is evaluated within the discipline in which it was made.
        obtain ⟨l, hs, hbody⟩ := hD.closure hf
        refine L.mono (callClosure_holds (fun g hg => (ih l).1 g (hbody g hg)) hs site ?_) ?_ ?_
        · exact fun a hmem => hD.values (ha a hmem)
        · exact fun v hv => hD.values hv
        · exact fun t ht => hD.values ht
      · rintro p rfl
        exact hprobe k p args hf ha

/-- Where stopping at a limit and the probes keep to disciplines that cover all closures, evaluating
and calling do to any depth. -/
theorem holds_of_depth {κ : Type} {D : κ → Discipline} (hD : Covers D) {L : Run.Logic Unit}
    (hstop : ∀ k limit, L.Holds (D k).values (D k).Throws fun _ => Run.stop limit)
    (hprobe : ∀ k p args, (D k).values (.fn (.probe p)) → (D k).All args →
      L.Holds (D k).values (D k).Throws fun _ => p.call args) (depth : Nat) (k : κ) :
    (∀ f, (D k).forms f → (D k).Evaluates L (fun _ => eval depth) f) ∧
      ∀ f args, (D k).values f → (D k).All args → (D k).Calls L (fun _ => apply depth) f args := by
  have hstart : ∀ k, (∀ f, (D k).forms f → (D k).Evaluates L (fun _ => eval 0) f) ∧
      ∀ f args, (D k).values f → (D k).All args → (D k).Calls L (fun _ => apply 0) f args :=
    fun k => ⟨fun f _ site scope _ => hstop k .nesting, fun f args _ _ site => hstop k .nesting⟩
  have hdeeper := holds_of_deeper hD (fun k _ n _ => hstop k (.room n)) (fun _ => 0) hstart hprobe depth k
  simpa only [Nat.zero_add] using hdeeper

end Discipline

end Attest
