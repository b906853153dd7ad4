import Attest.Proofs.Depth
/-!
# Threading is nesting

A threading form computes a value and hands it from step to step, as the first argument of each. Nested
calls compute the same: each step with the one before it written as its first argument
(`Form.yields_thread_iff`). What a step gives is handed on as a literal, at the place at which the argument
would be evaluated, so it is not evaluated again, whatever it looks like. The steps must be led by something
that has a value and no effect, since the nested call evaluates what leads the last step first.
-/

namespace Attest

/-! ## Steps -/

/-- A form that leads a call and has a value without being computed: a literal, or a bound name that makes no
special form. -/
def Scope.Leads (scope : Scope) (head : Form) : Prop :=
  (∃ v, head = .lit v) ∨
    ∃ name v, head = .sym name ∧ scope.lookup name = some v ∧ name ∉ ["do", "if", "let", "fn"]

/-- A step that is led so: what leads it alone, or a list. -/
def Scope.Applies (scope : Scope) (step : Form) : Prop :=
  scope.Leads step ∨ ∃ head args, step = .list (head :: args) ∧ scope.Leads head

namespace Form

/-- The call that a step makes of a form, as its first argument. -/
def applyTo (step form : Form) : Form :=
  match step with
  | .list (head :: args) => .list (head :: form :: args)
  | step => .list [step, form]

/-- The calls that steps make, each of the call before it and the first one of a form. -/
def nest (form : Form) (steps : List Form) : Form := steps.foldl (fun form step => step.applyTo form) form

/-- Steps that are called at once or later are lists of the same shape. -/
theorem exists_applyTo {scope : Scope} {step : Form} (h : scope.Applies step) :
    ∃ head args, scope.Leads head ∧ (∀ form, step.applyTo form = .list (head :: form :: args)) ∧
      ∀ v, threadStep step v false = .list (head :: .lit v :: args) := by
  rcases h with hlead | ⟨head, args, rfl, hlead⟩
  · refine ⟨step, [], hlead, ?_⟩
    rcases hlead with ⟨v, rfl⟩ | ⟨name, v, rfl, -, -⟩
    · exact ⟨fun _ => rfl, fun _ => rfl⟩
    · exact ⟨fun _ => rfl, fun _ => rfl⟩
  · exact ⟨head, args, hlead, fun _ => rfl, fun _ => rfl⟩

end Form

/-! ## One step -/

/-- A call evaluates its arguments only, from the first to the last. -/
theorem exists_eval_list {scope : Scope} {head : Form} (h : scope.Leads head) :
    ∃ f, ∀ depth site args, eval (depth + 2) site scope (.list (head :: args)) =
      evalItems (eval (depth + 1)) site.operands scope 1 args >>= apply (depth + 1) site.body f := by
  rcases h with ⟨f, rfl⟩ | ⟨name, f, rfl, hf, hname⟩
  · exact ⟨f, fun depth site args => rfl⟩
  · exact ⟨f, Discipline.eval_call_of_lookup hname hf⟩

/-- A step with a form as its first argument evaluates the form, then makes its call of the value. -/
theorem eval_applyTo {scope : Scope} {step : Form} (h : scope.Applies step) (depth : Nat) (site : Site)
    (form : Form) :
    eval (depth + 2) site scope (step.applyTo form) =
      eval (depth + 1) (site.operands.at 1) scope form >>= fun v =>
        eval (depth + 2) site scope (threadStep step v false) := by
  obtain ⟨head, args, hlead, happly, hthread⟩ := Form.exists_applyTo h
  obtain ⟨f, hf⟩ := exists_eval_list hlead
  simp only [happly, hthread, hf, evalItems, bind_assoc]
  refine bind_congr fun v => ?_
  -- The literal has its value at once.
  rw [show eval (depth + 1) (site.operands.at 1) scope (.lit v) = pure v from rfl, pure_bind]

/-- What a step with a form as its first argument comes to. -/
theorem reaches_applyTo_iff {scope : Scope} {step : Form} (h : scope.Applies step) {site : Site} {form : Form}
    {s t : Effects} {r : Except (Stop Thrown) Value} :
    Run.Reaches (fun depth => eval depth (site.operands.at 1) scope form >>= fun v =>
        eval depth site scope (threadStep step v false)) s r t ↔
      (step.applyTo form).Reaches site scope s r t := by
  have hform := eval_deepening (site.operands.at 1) scope form
  have hstep : ∀ v, Run.Deepening fun depth => eval depth site scope (threadStep step v false) :=
    fun v => eval_deepening site scope _
  rw [Form.Reaches, ← Run.reaches_shift_iff (eval_deepening site scope _) 2,
    ← Run.reaches_shift_iff (hform.bind hstep) 2]
  simp only [eval_applyTo h]
  rw [Run.reaches_bind_iff (hform.shift 2) fun v => (hstep v).shift 2,
    Run.reaches_bind_iff (hform.shift 1) fun v => (hstep v).shift 2]
  simp only [Run.reaches_shift_iff hform]

/-! ## Any number of steps -/

/-- How `->` works. -/
theorem threading_first : Threading.ofName "->" = ⟨false, false⟩ := by
  have hlast : "->".endsWith "->>" = false := by decide +kernel
  have hnil : "->".startsWith "some" = false := by decide +kernel
  rw [Threading.ofName, hlast, hnil]

theorem evalSteps_cons (ev : Evaluator) (scope : Scope) (acc : Value) (step : Form) (site : Site)
    (rest : List (Form × Site)) :
    evalSteps ev scope ⟨false, false⟩ acc ((step, site) :: rest) =
      ev site scope (threadStep step acc false) >>= fun v => evalSteps ev scope ⟨false, false⟩ v rest := rfl

/-- Running a value through steps comes to what the nested calls come to. -/
theorem reaches_steps_iff {scope : Scope} {steps : List Form} (h : ∀ step ∈ steps, scope.Applies step)
    (site : Site) (form : Form) {s t : Effects} {r : Except (Stop Thrown) Value} :
    Run.Reaches (fun depth => eval depth (stepSites site false steps).1 scope form >>= fun v =>
        evalSteps (eval depth) scope ⟨false, false⟩ v (stepSites site false steps).2) s r t ↔
      (form.nest steps).Reaches site scope s r t := by
  induction steps generalizing form s r t with
  | nil =>
    simp only [stepSites, evalSteps, bind_pure]
    rfl
  | cons step rest ih =>
    obtain ⟨hstep, hrest⟩ := List.forall_mem_cons.1 h
    have hform := eval_deepening ((stepSites site false rest).1.operands.at 1) scope form
    have hthread : ∀ v, Run.Deepening fun depth =>
        eval depth (stepSites site false rest).1 scope (threadStep step v false) := fun v => eval_deepening _ scope _
    have hsteps : ∀ v, Run.Deepening fun depth =>
        evalSteps (eval depth) scope ⟨false, false⟩ v (stepSites site false rest).2 := fun v =>
      evalSteps_deepening scope _ v _
    -- The first step and the form make the form that goes through the other steps.
    have hnest := ih hrest (step.applyTo form) (s := s) (r := r) (t := t)
    have hcongr := Run.reaches_bind_congr (hform.bind hthread) (eval_deepening _ scope (step.applyTo form)) hsteps
      (reaches_applyTo_iff hstep) (s := s) (t := t) (r := r)
    rw [Form.nest, List.foldl_cons, ← Form.nest, ← hnest, ← hcongr]
    simp only [stepSites, Bool.false_eq_true, if_false, evalSteps_cons, bind_assoc]

namespace Form

variable {scope : Scope} {steps : List Form}

/-- A value threaded through steps comes to what the nested calls come to, with the same effects: the same
value, or the same error. Evaluated to the limit, both are alike unless one of them nests too deeply for it. -/
theorem yields_thread_iff (hop : scope.lookup "->" = none) (hsteps : ∀ step ∈ steps, scope.Applies step)
    (form : Form) (site : Site) (s : Effects) :
    (∀ o t, (Form.list (.sym "->" :: form :: steps)).Yields site scope s o t ↔
      (form.nest steps).Yields site scope s o t) ∧
    (((Form.list (.sym "->" :: form :: steps)).evalAt site scope s).1 ≠ .error (.exhausted .nesting) →
      ((form.nest steps).evalAt site scope s).1 ≠ .error (.exhausted .nesting) →
      (Form.list (.sym "->" :: form :: steps)).evalAt site scope s = (form.nest steps).evalAt site scope s) := by
  have hthread : ∀ depth, eval (depth + 1) site scope (.list (.sym "->" :: form :: steps)) =
      eval depth (stepSites site false steps).1 scope form >>= fun v =>
        evalSteps (eval depth) scope ⟨false, false⟩ v (stepSites site false steps).2 := by
    intro depth
    show evalList (eval depth) (apply depth) site scope (.sym "->") (form :: steps) = _
    have hname : isThreading "->" = true := by decide +kernel
    rw [Discipline.evalList_of_name (by decide), hop, hname, Option.isNone_none, Bool.and_self, if_pos rfl,
      evalThread, threading_first]
  have hreaches : ∀ r t, (Form.list (.sym "->" :: form :: steps)).Reaches site scope s r t ↔
      (form.nest steps).Reaches site scope s r t := by
    intro r t
    rw [← reaches_steps_iff hsteps, Reaches, ← Run.reaches_shift_iff (eval_deepening site scope _) 1]
    simp only [hthread]
  exact ⟨fun o t => hreaches _ t, evalAt_eq_of_reaches fun r t h => (hreaches r t).1 h⟩

/-- `(-> (trace 10) (- 1) trace)`, of which the second step is a name: it notes 10, then 9. -/
theorem yields_thread_iff_trace :
    let scope : Scope := [("trace", .fn (.probe .trace)), ("-", .fn (.builtin .sub))]
    let first : Form := .list [.sym "trace", .lit (.int 10)]
    let steps : List Form := [.list [.sym "-", .lit (.int 1)], .sym "trace"]
    scope.lookup "->" = none ∧ (∀ step ∈ steps, scope.Applies step) ∧
      (Form.list [.sym "trace", .list [.sym "-", first, .lit (.int 1)]]).Yields [] scope {} (.ok (.int 9))
        { log := ["10", "9"] } := by
  intro scope first steps
  have hop : scope.lookup "->" = none := by decide +kernel
  have hsteps : ∀ step ∈ steps, scope.Applies step := by
    refine List.forall_mem_cons.2 ⟨.inr ⟨_, _, rfl, .inr ⟨"-", _, rfl, rfl, by decide⟩⟩, ?_⟩
    exact List.forall_mem_singleton.2 (.inl (.inr ⟨"trace", _, rfl, rfl, by decide⟩))
  have hthread : (Form.list (.sym "->" :: first :: steps)).Yields [] scope {} (.ok (.int 9))
      { log := ["10", "9"] } := ⟨Run.ended_ok _, 4, by with_unfolding_all rfl⟩
  exact ⟨hop, hsteps, ((yields_thread_iff hop hsteps first [] {}).1 _ _).1 hthread⟩

end Form

end Attest
