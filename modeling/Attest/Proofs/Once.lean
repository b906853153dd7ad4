import Attest.Proofs.Checking
import Attest.Proofs.Restriction
/-!
# The subject of an assertion is computed once

A host's function counts its calls and answers as it likes, by throwing too. Where a scope has one
under the name `tick` and nowhere else, in what it answers neither (`Restriction.untouched`), forms
without that name do not call it, so all calls in an assertion about `(tick)` come from computing
its subject. Groupings compute it before everything else and hand on the outcome; a single
expectation computes it after its expected form (`Engine.ticks_check`).
-/

namespace Attest

namespace Run

variable {ε δ α β : Type} {x : Run ε α} {s t : Effects} {site : Site}

/-- A computation that does not call the function with a place, however it ends. -/
def Uncalled (site : Site) (x : Run ε α) : Prop := ∀ s, (x s).2.calls.count site = s.calls.count site

theorem count_bind_of_ok {a : α} {f : α → Run ε β} (h : x s = (.ok a, t)) (hf : (f a).Uncalled site) :
    ((x >>= f) s).2.calls.count site = t.calls.count site := by
  rw [bind_of_ok h, hf]

theorem count_bind_of_error {e : Stop ε} (h : x s = (.error e, t)) (f : α → Run ε β) :
    ((x >>= f) s).2.calls.count site = t.calls.count site := by
  rw [bind_of_error h]

theorem Uncalled.attempt (h : x.Uncalled site) : Uncalled site (Run.attempt x : Run δ (Except ε α)) := by
  intro s
  rw [attempt_apply, ← h s]
  rcases x s with ⟨(e | _) | a, t⟩ <;> rfl

theorem Uncalled.widen {x : Run Empty α} (h : x.Uncalled site) : Uncalled site (Run.widen x : Run ε α) := by
  intro s
  rw [widen_apply, ← h s]
  rcases x s with ⟨e | a, t⟩ <;> rfl

/-- Counting the calls of another function. -/
theorem uncalled_countCall {other : Site} (h : other ≠ site) : Uncalled site (Run.countCall other : Run ε Nat) := by
  intro s
  show (s.calls ++ [other]).count site = s.calls.count site
  rw [List.count_append, List.count_singleton, if_neg (by simpa using h), Nat.add_zero]

/-- What a computation ends with, and that it does not call a function. -/
def Logic.uncalled (site : Site) : Logic Unit where
  Holds P E x := Ends False P E (x ()) ∧ (x ()).Uncalled site
  pure h := ⟨.pure h, fun _ => rfl⟩
  raise h := ⟨.raise h, fun _ => rfl⟩
  mono h hP hE := ⟨h.1.mono hP hE, h.2⟩
  bind {_ _ _ _ _ _ x f} hx hf := by
    refine ⟨hx.1.bind fun a ha => (hf a ha).1, fun s => ?_⟩
    rcases hxs : x () s with ⟨e | a, t⟩
    · rw [count_bind_of_error hxs, ← hx.2 s, hxs]
    · rw [count_bind_of_ok hxs (hf a (hx.1.ok s a t hxs)).2, ← hx.2 s, hxs]
  attempt h := ⟨h.1.attempt, h.2.attempt⟩
  widen h := ⟨h.1.widen, h.2.widen⟩

end Run

/-- The host's function with a place is nowhere in sight. A function may still be made where it is
bound, as long as the body of the function does without the names that it is bound to. -/
def Restriction.untouched (site : Site) : Restriction where
  builtins _ := True
  probes p := (Fn.probe p).site? ≠ some site
  closures := True

namespace Restriction

variable {site : Site}

theorem untouched_upheld (site : Site) (names : String → Prop) :
    ((untouched site).discipline names).Upheld (.uncalled site) := by
  refine Discipline.upheld_of_probes (L := .uncalled site) (untouched site).discipline_covers ?_ ?_ names
  · exact fun _ limit => ⟨.stop limit, fun _ => rfl⟩
  intro names p args hp ha
  refine Discipline.probe_holds (L := .uncalled site) ha (fun _ => ⟨.modifyGet _, fun _ => rfl⟩) ?_
  rintro other name answers rfl
  have hother : other ≠ site := fun h => hp.1 (congrArg some h)
  exact ⟨⟨.modifyGet _, Run.uncalled_countCall hother⟩, fun n shown => answer_keeps (hp.2 n shown)⟩

/-- The parts of a form without the name `tick` have none. -/
theorem untouched_inherited (site : Site) : Form.Inherited ((untouched site).OfForm (· ≠ "tick")) where
  args form hform f hf := by
    cases form with
    | list items =>
      cases items with
      | nil => cases hf
      | cons head rest => exact (ofList_iff.1 hform).2 f (List.mem_cons_of_mem _ hf)
    | _ => cases hf
  vector items hitems f hf := ofForms_iff.1 hitems f hf
  body forms hforms := by
    unfold Traversal.bodyForm
    split
    · exact hforms _ List.mem_cons_self
    · refine ofList_iff.2 ⟨fun _ => trivial, List.forall_mem_cons.2 ⟨?_, hforms⟩⟩
      show "do" ≠ "tick"
      decide

end Restriction

/-- An engine of which the schemas do not call a function, when asked about what it is nowhere in
sight of. -/
def Engine.Uncalled (site : Site) (engine : Engine) : Prop :=
  ∀ validator, engine.schemas = some validator → ∀ place name v, (Restriction.untouched site).OfValue v →
    (validator.validate place name v).Uncalled site ∧ (validator.explain place name v).Uncalled site

namespace Engine

variable {engine : Engine} {site : Site}

/-- The tests of a registry do not call a function if they are without it. -/
theorem uncalled_of_registry {renderer : Option Renderer} {registry : Registry}
    (h : ∀ p ∈ registry, ((Restriction.untouched site).discipline fun _ => True).OfSchema p.2) :
    Engine.Uncalled site ⟨renderer, some registry.validator⟩ := by
  rintro _ ⟨⟩ place name v hv
  constructor
  · exact (Discipline.accepts_gives (Restriction.untouched_upheld site _) h place hv).2
  · exact (Discipline.explanation_gives (Restriction.untouched_upheld site _) h place hv).2

theorem Uncalled.serves (h : engine.Uncalled site) (names : String → Prop) :
    ((Restriction.untouched site).discipline names).Serves (.uncalled site) engine := by
  intro validator hv place name v hval
  obtain ⟨hvalidate, hexplain⟩ := h validator hv place name v hval
  exact ⟨⟨.any _, hvalidate⟩, ⟨.any _, hexplain⟩⟩

end Engine

/-! ## The subject -/

section Tick

variable {site : Site} {name : String} {answers : Nat → List String → Outcome}

/-- A host's function counts the call, notes it and answers. -/
theorem call_host (args : List Value) (s : Effects) : (Probe.host site name answers).call args s =
    ((answers (s.calls.count site + 1) (args.map Value.render)).mapError .thrown,
      { s with calls := s.calls ++ [site], log := s.log ++ [name ++ " " ++ toString (s.calls.count site + 1)] }) := by
  show (Run.ofExcept (answers (s.calls.count site + 1) (args.map Value.render)) : Eval Value) _ = _
  cases answers (s.calls.count site + 1) (args.map Value.render) <;> rfl

/-- Calling the function counts one call, however deep the evaluation may still nest, and gives what
the host answers. -/
theorem eval_tick (depth : Nat) {scope : Scope}
    (hs : scope.lookup "tick" = some (.fn (.probe (.host site name answers)))) (place : Site) (s : Effects) :
    ∃ t, eval (depth + 2) place scope (.list [.sym "tick"]) s =
        ((answers (s.calls.count site + 1) []).mapError .thrown, t) ∧
      t.calls.count site = s.calls.count site + 1 := by
  have hcall : eval (depth + 2) place scope (.list [.sym "tick"]) = (Probe.host site name answers).call [] :=
    Discipline.eval_call_of_lookup (by decide) hs depth place []
  rw [hcall, call_host]
  refine ⟨_, rfl, ?_⟩
  simp

/-- Computing the subject `(tick)` counts one call and has the outcome that the host answers. -/
theorem outcome_tick {c : Check} (hc : c.subject = .form (.list [.sym "tick"]))
    (hs : c.scope.lookup "tick" = some (.fn (.probe (.host site name answers)))) (s : Effects) :
    ∃ t, (c.outcome : Checking Outcome) s = (.ok (answers (s.calls.count site + 1) []), t) ∧
      t.calls.count site = s.calls.count site + 1 := by
  obtain ⟨t, heval, ht⟩ := eval_tick (nestingLimit - 2) hs c.site.subject s
  refine ⟨t, ?_, ht⟩
  rw [Check.outcome, hc]
  have hat : (Form.list [.sym "tick"]).evalAt c.site.subject c.scope s =
      ((answers (s.calls.count site + 1) []).mapError .thrown, t) := heval
  refine (Run.attempt_apply _ s).trans ?_
  rw [hat]
  cases answers (s.calls.count site + 1) [] <;> rfl

end Tick

/-! ## The whole assertion -/

namespace Engine

open Restriction

variable {engine : Engine} {a : Assertion} {scope : Scope} {site : Site} {name : String}
  {answers : Nat → List String → Outcome}

/-- A check about `(tick)` counts one call at most, and one if its expected form has a value. -/
theorem ticks_run (hengine : engine.Uncalled site) (hanswers : ∀ n shown, (untouched site).OfAnswer (answers n shown))
    {c : Check} (hc : c.subject = .form (.list [.sym "tick"]))
    (he : (untouched site).OfForm (· ≠ "tick") c.expected)
    (htick : c.scope.lookup "tick" = some (.fn (.probe (.host site name answers))))
    (hscope : (untouched site).OfScope (· ≠ "tick") c.scope) (s : Effects) :
    ((c.run engine : Checking Event) s).2.calls.count site ≤ s.calls.count site + 1 ∧
      ((∃ v t, c.expected.evalAt c.site.expected c.scope s = (.ok v, t)) →
        ((c.run engine : Checking Event) s).2.calls.count site = s.calls.count site + 1) := by
  have hkept := (untouched_upheld site _).evalAt he c.site.expected hscope
  have hcalls : (c.expected.evalAt c.site.expected c.scope s).2.calls.count site = s.calls.count site := hkept.2 s
  have hattempt : (Run.attempt (c.expected.evalAt c.site.expected c.scope) : Checking Outcome) s = _ :=
    Run.attempt_apply _ s
  unfold Check.run
  rcases hx : c.expected.evalAt c.site.expected c.scope s with ⟨(e | _) | v, u⟩ <;> rw [hx] at hcalls hattempt
  · -- The expected form throws, so the subject is not computed.
    rw [Run.count_bind_of_ok hattempt fun _ => rfl, hcalls]
    exact ⟨Nat.le_succ _, fun ⟨_, _, h⟩ => nomatch h⟩
  · rw [Run.count_bind_of_error hattempt, hcalls]
    exact ⟨Nat.le_succ _, fun ⟨_, _, h⟩ => nomatch h⟩
  · obtain ⟨t, hout, ht⟩ := outcome_tick hc htick u
    have hanswer : ((untouched site).discipline (· ≠ "tick")).OfOutcome (answers (u.calls.count site + 1) []) :=
      answer_keeps (hanswers _ _)
    have hjudge : Run.Uncalled site (c.judge engine (.ofValue v c.raise engine.schemas) _ : Checking Event) :=
      (Discipline.judge_gives (untouched_upheld site _) (hengine.serves _) (hkept.1.ok s v u hx) hanswer).2
    have hrun := Run.count_bind_of_ok hout hjudge
    rw [Run.bind_of_ok hattempt, hrun, ht, hcalls]
    exact ⟨Nat.le_refl _, fun _ => rfl⟩

theorem plan_tick (ha : a.actual = .list [.sym "tick"]) : a.plan = .ofExpected a.expected := by
  rw [Assertion.plan, ha, Plan.ofForms, Plan.around_eq]
  rfl

/-- An assertion about `(tick)` of which the expected form is a grouping counts one call. -/
theorem ticks_checkAt_of_grouping (hengine : engine.Uncalled site)
    (hanswers : ∀ n shown, (untouched site).OfAnswer (answers n shown)) (ha : a.actual = .list [.sym "tick"])
    (he : (untouched site).OfForm (· ≠ "tick") a.expected)
    (htick : scope.lookup "tick" = some (.fn (.probe (.host site name answers))))
    (hscope : (untouched site).OfScope (· ≠ "tick") scope) {g : Grouping} (hg : Grouping.parse a.expected = .ok g)
    (hne : g ≠ .primitive) (place : Site) (s : Effects) :
    (engine.checkAt a place scope s).2.calls.count site = s.calls.count site + 1 := by
  obtain ⟨rest, hexpand, hrest⟩ := Discipline.exists_rest_of_grouping (untouched_upheld site _)
    (untouched_inherited site) he hg hne (c := a.check place scope) hscope
  have hsubject : (a.check place scope).subject = .form (.list [.sym "tick"]) := congrArg Subject.form ha
  obtain ⟨t, hout, ht⟩ := outcome_tick hsubject htick s
  unfold checkAt Assertion.expandAt
  have hgives : (Run.Logic.uncalled site).Gives (fun _ => True)
      (rest (answers (s.calls.count site + 1) []) >>= fun items => Item.runAll engine items) :=
    gives_bind (hrest _ (answer_keeps (hanswers _ _))) fun items hitems =>
      Discipline.runAll_gives hitems (hengine.serves _)
  rw [plan_tick ha, hexpand, bind_assoc, Run.count_bind_of_ok hout hgives.2, ht]

/-- A single expectation has the effects of its check. -/
theorem checkAt_snd_of_single (ha : a.actual = .list [.sym "tick"]) (hg : Grouping.parse a.expected = .ok .primitive)
    (place : Site) (s : Effects) :
    (engine.checkAt a place scope s).2 = (((a.check place scope).run engine : Checking Event) s).2 := by
  unfold checkAt Assertion.expandAt
  rw [plan_tick ha, Plan.ofExpected_eq, hg]
  simp only [Plan.expand]
  rw [pure_bind]
  simp only [Item.runAll, Item.run, Run.bind_apply]
  rcases ((a.check place scope).run engine : Checking Event) s with ⟨e | event, t⟩ <;> rfl

/-- An assertion about `(tick)` calls the function `tick` at most once, whatever that answers, if nothing
but `(tick)` calls it. It calls it once if its expected form is a grouping, whatever the parts of
that are, and if it is a single expectation of which the expected form has a value. -/
theorem ticks_check (hengine : engine.Uncalled site) (hanswers : ∀ n shown, (untouched site).OfAnswer (answers n shown))
    (ha : a.actual = .list [.sym "tick"]) (he : (untouched site).OfForm (· ≠ "tick") a.expected)
    (htick : scope.lookup "tick" = some (.fn (.probe (.host site name answers))))
    (hscope : (untouched site).OfScope (· ≠ "tick") scope) (s : Effects) :
    (engine.check a scope s).2.calls.count site ≤ s.calls.count site + 1 ∧
      (∀ g, Grouping.parse a.expected = .ok g → g ≠ .primitive →
        (engine.check a scope s).2.calls.count site = s.calls.count site + 1) ∧
      (Grouping.parse a.expected = .ok .primitive →
        (∃ v t, a.expected.evalAt (Site.expected [s.turns]) scope { s with turns := s.turns + 1 } = (.ok v, t)) →
        (engine.check a scope s).2.calls.count site = s.calls.count site + 1) := by
  have hcheck : engine.check a scope s = engine.checkAt a [s.turns] scope { s with turns := s.turns + 1 } := rfl
  rw [hcheck]
  cases hg : Grouping.parse a.expected with
  | error d =>
    have hnone : (engine.checkAt a [s.turns] scope { s with turns := s.turns + 1 }).2.calls.count site =
        s.calls.count site := by
      unfold checkAt Assertion.expandAt
      rw [plan_tick ha, Plan.ofExpected_eq, hg]
      simp only [Plan.expand]
      rfl
    exact ⟨by omega, nofun, nofun⟩
  | ok g =>
    by_cases hne : g = .primitive
    · subst hne
      have hsubject : (a.check [s.turns] scope).subject = .form (.list [.sym "tick"]) := congrArg Subject.form ha
      obtain ⟨hle, hone⟩ := ticks_run hengine hanswers hsubject he htick hscope { s with turns := s.turns + 1 }
      rw [checkAt_snd_of_single ha hg]
      exact ⟨hle, fun g hg hne => absurd (Except.ok.inj hg).symm hne, fun _ => hone⟩
    · have hone := ticks_checkAt_of_grouping hengine hanswers ha he htick hscope hg hne [s.turns]
        { s with turns := s.turns + 1 }
      exact ⟨Nat.le_of_eq hone, fun _ _ _ => hone, fun _ _ => hone⟩

/-- `(expect (more-of [n s] :even n "a" s) (tick))`, where `:even` names a schema with a test. First `tick`
answers with what the pattern takes apart, and then it throws. -/
theorem ticks_check_moreOf :
    let expected : Form := .list [.sym "more-of", .vector [.sym "n", .sym "s"], .lit (.keyword "even"), .sym "n",
      .lit (.str "a"), .sym "s"]
    let a : Assertion := { expected, actual := .list [.sym "tick"] }
    let site : Site := [7]
    let answers : Nat → List String → Outcome := fun n _ =>
      if n = 1 then .ok (.list [.int 2, .str "a"]) else .error (.argument "spent")
    let registry : Registry := [("even", .test (.fn (.builtin (.test .even))) "odd")]
    let scope : Scope := [("tick", .fn (.probe (.host site "tick" answers)))]
    let engine : Engine := ⟨none, some registry.validator⟩
    engine.Uncalled site ∧ (∀ n shown, (untouched site).OfAnswer (answers n shown)) ∧
      (untouched site).OfForm (· ≠ "tick") a.expected ∧
      scope.lookup "tick" = some (.fn (.probe (.host site "tick" answers))) ∧
      (untouched site).OfScope (· ≠ "tick") scope ∧
      (engine.check a scope {}).2.calls.count site = 1 ∧
      (engine.check a scope (engine.check a scope {}).2).2.calls.count site = 2 := by
  intro expected a site answers registry scope engine
  have hengine : engine.Uncalled site := uncalled_of_registry (List.forall_mem_singleton.2 trivial)
  have hanswers : ∀ n shown, (untouched site).OfAnswer (answers n shown) := by
    intro n shown
    by_cases hn : n = 1
    · simp [answers, hn, OfAnswer, OfValue, OfItems]
    · simp [answers, hn, OfAnswer, Thrown.argument, OfThrown, OfData]
  have he : (untouched site).OfForm (· ≠ "tick") a.expected := by
    simp [a, expected, OfForm, OfForms, OfValue, untouched]
  have hscope : (untouched site).OfScope (· ≠ "tick") scope := by
    simp [scope, OfScope, untouched]
  obtain ⟨g, hg, hne⟩ : ∃ g, Grouping.parse a.expected = .ok g ∧ g ≠ .primitive := ⟨_, rfl, by simp⟩
  have hfirst : (engine.check a scope {}).2.calls.count site = 1 :=
    (ticks_check hengine hanswers rfl he rfl hscope {}).2.1 g hg hne
  have hsecond := (ticks_check hengine hanswers rfl he rfl hscope (engine.check a scope {}).2).2.1 g hg hne
  exact ⟨hengine, hanswers, he, rfl, hscope, hfirst, hsecond.trans (congrArg (· + 1) hfirst)⟩

end Engine

end Attest
