import Attest.Proofs.Comprehension
import Attest.Proofs.Evaluation
/-!
# The verdict of a single check

Rules say which status a check ends with (`Check.Verdict`): what its expected form throws decides
alone; a class of errors may ask for something to be thrown; anything else that the subject throws
is an error; a function answers, and any other value is compared. Running a check follows these
rules, and comes to a verdict whenever what it computes comes to an end (`Check.run_verdict`).
-/

namespace Attest

/-! ## The rules -/

/-- A value that is compared by equality: no function, class or pattern, nor the name of a schema. -/
def Value.IsPlain (engine : Engine) : Value → Prop
  | .fn _ | .cls _ | .pattern _ => False
  | .keyword name => engine.knowsSchema name = false
  | _ => True

/-- A class of errors asks for one to be thrown, unless the check takes errors as values. -/
def Value.AsksForThrown (raise : Bool) (v : Value) : Prop := raise = true ∧ ∃ k, v = .cls (.error k)

namespace Check

variable (c : Check) (engine : Engine)

/-- Whether an actual value is as an expected value says that is no function, by the first relation
that applies. -/
inductive Related : Value → Value → Effects → Bool → Effects → Prop where
  | accepted {validator name actual s t} (hschemas : engine.schemas = some validator)
      (hname : validator.isRegistered name = true)
      (hvalid : validator.validate c.site.decision name actual s = (.ok true, t)) :
      Related (.keyword name) actual s true t
  /-- A schema that refuses a value is asked for the reason. -/
  | refused {validator name actual s t reason u} (hschemas : engine.schemas = some validator)
      (hname : validator.isRegistered name = true)
      (hvalid : validator.validate c.site.decision name actual s = (.ok false, t))
      (hreason : validator.explain c.site.reason name actual t = (.ok reason, u)) :
      Related (.keyword name) actual s false u
  | instances (k : Class) (actual : Value) (s : Effects) : Related (.cls k) actual s (k.isInstance actual) s
  | pattern (p : Pattern) (actual : Value) (s : Effects) :
      Related (.pattern p) actual s (p.isFound actual.stringForm) s
  | equal {expected} (hplain : expected.IsPlain engine) (actual : Value) (s : Effects) :
      Related expected actual s (expected == actual) s

/-- The status for an expected value and the outcome of the subject. -/
inductive Judged : Value → Outcome → Effects → Status → Effects → Prop where
  | thrown {k e s} (hraise : c.raise = true) (he : e.errorClass.isA k = true) :
      Judged (.cls (.error k)) (.error e) s .pass s
  | notThrown {k o s} (hraise : c.raise = true) (ho : ∀ e, o = .error e → e.errorClass.isA k = false) :
      Judged (.cls (.error k)) o s .fail s
  | subjectThrows {v e s} (hv : ¬v.AsksForThrown c.raise) : Judged v (.error e) s .error s
  | predicateThrows {f actual s e t}
      (hcall : (Value.fn f).applyAt c.site.decision [actual] s = (.error (.thrown e), t)) :
      Judged (.fn f) (.ok actual) s .error t
  | predicateAnswers {f actual s answer t}
      (hcall : (Value.fn f).applyAt c.site.decision [actual] s = (.ok answer, t)) :
      Judged (.fn f) (.ok actual) s (if answer.isTruthy then .pass else .fail) t
  | compared {v actual s holds t} (hv : ¬v.AsksForThrown c.raise) (h : c.Related engine v actual s holds t) :
      Judged v (.ok actual) s (if holds then .pass else .fail) t

/-- The status that a check ends with, and the effects it leaves. -/
inductive Verdict : Effects → Status → Effects → Prop where
  /-- The subject is not computed. -/
  | expectedThrows {s e t} (h : c.expected.evalAt c.site.expected c.scope s = (.error (.thrown e), t)) :
      Verdict s .error t
  | judged {s v t o u status w} (h : c.expected.evalAt c.site.expected c.scope s = (.ok v, t))
      (ho : (c.outcome : Checking Outcome) t = (.ok o, u)) (hjudged : c.Judged engine v o u status w) :
      Verdict s status w

/-- What a check evaluates, calls and asks comes to an end. -/
structure Answered : Prop where
  expected : (c.expected.evalAt c.site.expected c.scope).Total
  subject : ∀ form, c.subject = .form form → (form.evalAt c.site.subject c.scope).Total
  /-- The expected value, called with an actual one. -/
  predicate : ∀ {s v t actual u}, c.expected.evalAt c.site.expected c.scope s = (.ok v, t) →
    (c.outcome : Checking Outcome) t = (.ok (.ok actual), u) → (v.applyAt c.site.decision [actual]).Total
  schemas : engine.Total

end Check

/-! ## Strategies -/

theorem Strategy.ofValue_of_isPlain {engine : Engine} {v : Value} (h : v.IsPlain engine) (raise : Bool) :
    Strategy.ofValue v raise engine.schemas = .equal v := by
  cases v with
  | keyword name =>
    have hunknown : engine.schemas.any (·.isRegistered name) = false := h
    unfold ofValue ofKeyword
    cases hs : engine.schemas with
    | none => rfl
    | some validator =>
      rw [hs] at hunknown
      have hname : validator.isRegistered name = false := hunknown
      simp [hname]
  | fn f => exact h.elim
  | cls k => exact h.elim
  | pattern p => exact h.elim
  | _ => rfl

theorem Strategy.ofValue_keyword {engine : Engine} {validator : Validator} {name : String}
    (hs : engine.schemas = some validator) (hname : validator.isRegistered name = true) (raise : Bool) :
    Strategy.ofValue (.keyword name) raise engine.schemas = .schema name validator := by
  simp [ofValue, ofKeyword, hs, hname]

theorem Strategy.ofValue_raised {raise : Bool} (h : raise = true) (k : ErrorClass)
    (schemas : Option Validator) : Strategy.ofValue (.cls (.error k)) raise schemas = .throws k := by
  simp [ofValue, h]

/-- A class that does not ask for an error to be thrown is one that values are instances of. -/
theorem Strategy.ofValue_cls {k : Class} {raise : Bool} (h : ¬(Value.cls k).AsksForThrown raise)
    (schemas : Option Validator) : Strategy.ofValue (.cls k) raise schemas = .instances k := by
  cases k with
  | error k =>
    have hraise : raise ≠ true := fun hr => h ⟨hr, k, rfl⟩
    simp [ofValue, hraise]
  | _ => rfl

theorem Strategy.ofValue_ne_throws {v : Value} {raise : Bool} (h : ¬v.AsksForThrown raise)
    (schemas : Option Validator) (k : ErrorClass) : Strategy.ofValue v raise schemas ≠ .throws k := by
  cases v with
  | cls c =>
    rw [ofValue_cls h]
    exact Strategy.noConfusion
  | keyword name =>
    show ofKeyword name schemas ≠ .throws k
    unfold ofKeyword
    split
    · split <;> exact Strategy.noConfusion
    · exact Strategy.noConfusion
  | _ => exact Strategy.noConfusion

namespace Check

variable {c : Check} {engine : Engine}

/-! ## Events and their status -/

@[simp]
theorem comparison_status (c : Check) (holds : Bool) (actual : String) :
    (c.comparison holds actual).status = if holds then .pass else .fail := rfl

theorem equalEvent_status (c : Check) (renderer : Option Renderer) (expected actual : Value) :
    (c.equalEvent renderer expected actual).status = if expected == actual then .pass else .fail := by
  unfold equalEvent
  split
  · rfl
  · cases renderer <;> rfl

theorem schemaEvent_apply (c : Check) (validator : Validator) (name : String) (actual : Value) (s : Effects) :
    (c.schemaEvent validator name actual : Checking Event) s =
      match validator.validate c.site.decision name actual s with
      | (.ok true, t) => (.ok (c.event .pass actual.render), t)
      | (.ok false, t) =>
        match validator.explain c.site.reason name actual t with
        | (.ok reason, u) => (.ok { c.event .fail actual.render with message := some reason }, u)
        | (.error e, u) => (.error e.widen, u)
      | (.error e, t) => (.error e.widen, t) := by
  unfold schemaEvent
  rw [Run.bind_apply, Run.widen_apply]
  rcases validator.validate c.site.decision name actual s with ⟨_ | _ | _, t⟩
  · rfl
  · show (Run.widen (validator.explain c.site.reason name actual) >>= _) t =
      match validator.explain c.site.reason name actual t with
      | (.ok reason, u) => (.ok { c.event .fail actual.render with message := some reason }, u)
      | (.error e, u) => (.error e.widen, u)
    rw [Run.bind_apply, Run.widen_apply]
    rcases validator.explain c.site.reason name actual t with ⟨_ | _, u⟩ <;> rfl
  · rfl

theorem predicateEvent_apply (c : Check) (f actual : Value) (s : Effects) :
    (c.predicateEvent f actual : Checking Event) s =
      match f.applyAt c.site.decision [actual] s with
      | (.ok answer, t) =>
        let call := "(" ++ c.expectedText ++ " " ++ actual.render ++ ")"
        (.ok (if answer.isTruthy then c.event .pass call else c.event .fail ("(not " ++ call ++ ")")), t)
      | (.error (.thrown e), t) => (.ok (c.thrownEvent e), t)
      | (.error (.exhausted limit), t) => (.error (.exhausted limit), t) := by
  unfold predicateEvent
  rw [Run.bind_apply, Run.attempt_apply]
  rcases f.applyAt c.site.decision [actual] s with ⟨(_ | _) | _, t⟩ <;> rfl

/-- Outside a check that waits for it, whatever the subject throws is an error. -/
theorem judge_error {strategy : Strategy} (h : ∀ k, strategy ≠ .throws k) (c : Check) (engine : Engine)
    (e : Thrown) : (c.judge engine strategy (.error e) : Checking Event) = pure (c.thrownEvent e) := by
  cases strategy with
  | throws k => exact absurd rfl (h k)
  | _ => rfl

/-! ## The rules are followed -/

/-- What the check answers for an expected value and the outcome of its subject. -/
def answer (c : Check) (engine : Engine) (expected : Value) (outcome : Outcome) : Checking Event :=
  c.judge engine (.ofValue expected c.raise engine.schemas) outcome

variable {v actual : Value} {o : Outcome} {s t u : Effects} {status : Status} {holds : Bool}

theorem answer_of_related (h : c.Related engine v actual s holds t) (hv : ¬v.AsksForThrown c.raise) :
    ∃ e, c.answer engine v (.ok actual) s = (.ok e, t) ∧ e.status = if holds then .pass else .fail := by
  unfold answer
  cases h with
  | accepted hschemas hname hvalid =>
    rw [Strategy.ofValue_keyword hschemas hname]
    exact ⟨_, (schemaEvent_apply ..).trans (by rw [hvalid]), rfl⟩
  | @refused validator name _ _ _ reason _ hschemas hname hvalid hreason =>
    rw [Strategy.ofValue_keyword hschemas hname]
    refine ⟨{ c.event .fail actual.render with message := some reason }, ?_, rfl⟩
    exact (c.schemaEvent_apply validator name actual s).trans (by simp only [hvalid, hreason])
  | instances k =>
    rw [Strategy.ofValue_cls hv]
    exact ⟨_, rfl, rfl⟩
  | pattern p => exact ⟨_, rfl, rfl⟩
  | equal hplain =>
    rw [Strategy.ofValue_of_isPlain hplain]
    exact ⟨_, rfl, equalEvent_status ..⟩

theorem answer_of_judged (h : c.Judged engine v o s status t) :
    ∃ e, c.answer engine v o s = (.ok e, t) ∧ e.status = status := by
  cases h with
  | @thrown k e _ hraise he =>
    refine ⟨c.throwsEvent k (.error e), by rw [answer, Strategy.ofValue_raised hraise]; rfl, ?_⟩
    exact if_pos he
  | @notThrown k _ _ hraise ho =>
    refine ⟨c.throwsEvent k o, by rw [answer, Strategy.ofValue_raised hraise]; rfl, ?_⟩
    cases o with
    | ok actual => rfl
    | error e => exact if_neg (by rw [Thrown.isInstance, ho e rfl]; exact Bool.false_ne_true)
  | @subjectThrows _ e _ hv =>
    rw [answer, judge_error (Strategy.ofValue_ne_throws hv _)]
    exact ⟨c.thrownEvent e, rfl, rfl⟩
  | predicateThrows hcall => exact ⟨_, (predicateEvent_apply ..).trans (by rw [hcall]), rfl⟩
  | predicateAnswers hcall =>
    refine ⟨_, (predicateEvent_apply ..).trans (by rw [hcall]), ?_⟩
    split <;> rfl
  | compared hv hrelated => exact answer_of_related hrelated hv

/-! ## Some rule applies, unless a limit is reached -/

theorem related_or_exhausted (c : Check) (engine : Engine) (actual : Value) (s : Effects)
    (hfn : ∀ f, v ≠ .fn f) : (∃ holds t, c.Related engine v actual s holds t) ∨
      ∃ limit t, c.answer engine v (.ok actual) s = (.error (.exhausted limit), t) := by
  by_cases hplain : v.IsPlain engine
  · exact .inl ⟨_, _, .equal hplain actual s⟩
  cases v with
  | fn f => exact absurd rfl (hfn f)
  | cls k => exact .inl ⟨_, _, .instances k actual s⟩
  | pattern p => exact .inl ⟨_, _, .pattern p actual s⟩
  | keyword name =>
    obtain ⟨validator, hschemas, hname⟩ := (Option.any_eq_true _ _).1 (Bool.of_not_eq_false hplain)
    rw [answer, Strategy.ofValue_keyword hschemas hname]
    rcases hvalid : validator.validate c.site.decision name actual s with ⟨(e | limit) | _ | _, t⟩
    · exact e.elim
    · exact .inr ⟨limit, t, (schemaEvent_apply ..).trans (by rw [hvalid]; rfl)⟩
    · rcases hreason : validator.explain c.site.reason name actual t with ⟨(e | limit) | reason, u⟩
      · exact e.elim
      · exact .inr ⟨limit, u, (schemaEvent_apply ..).trans (by simp only [hvalid, hreason]; rfl)⟩
      · exact .inl ⟨_, _, .refused hschemas hname hvalid hreason⟩
    · exact .inl ⟨_, _, .accepted hschemas hname hvalid⟩
  | _ => exact absurd trivial hplain

theorem judged_or_exhausted (c : Check) (engine : Engine) (v : Value) (o : Outcome) (s : Effects) :
    (∃ status t, c.Judged engine v o s status t) ∨
      ∃ limit t, c.answer engine v o s = (.error (.exhausted limit), t) := by
  by_cases hv : v.AsksForThrown c.raise
  · obtain ⟨hraise, k, rfl⟩ := hv
    by_cases hthrown : ∃ e, o = .error e ∧ e.errorClass.isA k = true
    · obtain ⟨e, rfl, he⟩ := hthrown
      exact .inl ⟨_, _, .thrown hraise he⟩
    · refine .inl ⟨_, _, .notThrown hraise fun e he => ?_⟩
      exact Bool.eq_false_iff.2 fun hk => hthrown ⟨e, he, hk⟩
  cases o with
  | error e => exact .inl ⟨_, _, .subjectThrows hv⟩
  | ok actual =>
    by_cases hfn : ∃ f, v = .fn f
    · obtain ⟨f, rfl⟩ := hfn
      -- No rule applies where the call reaches a limit.
      rcases hcall : (Value.fn f).applyAt c.site.decision [actual] s with ⟨(e | limit) | a, t⟩
      · exact .inl ⟨_, _, .predicateThrows hcall⟩
      · exact .inr ⟨limit, t, (predicateEvent_apply ..).trans (by rw [hcall])⟩
      · exact .inl ⟨_, _, .predicateAnswers hcall⟩
    · rcases c.related_or_exhausted engine actual s fun f hf => hfn ⟨f, hf⟩ with ⟨holds, t, h⟩ | h
      · exact .inl ⟨_, _, .compared hv h⟩
      · exact .inr h

theorem outcome_or_exhausted (c : Check) (s : Effects) :
    (∃ o t, (c.outcome : Checking Outcome) s = (.ok o, t)) ∨
      ∃ limit t, (c.outcome : Checking Outcome) s = (.error (.exhausted limit), t) := by
  unfold outcome
  cases c.subject with
  | outcome o => exact .inl ⟨o, s, rfl⟩
  | form form =>
    rcases h : form.evalAt c.site.subject c.scope s with ⟨(e | limit) | v, t⟩
    · exact .inl ⟨_, t, Run.attempt_of_thrown h⟩
    · exact .inr ⟨limit, t, Run.attempt_of_exhausted h⟩
    · exact .inl ⟨_, t, Run.attempt_of_ok h⟩

/-! ## The verdict of a run -/

theorem run_of_throws (engine : Engine) {e : Thrown}
    (h : c.expected.evalAt c.site.expected c.scope s = (.error (.thrown e), t)) :
    (c.run engine : Checking Event) s = (.ok (c.thrownEvent e), t) :=
  Run.bind_of_ok (Run.attempt_of_thrown h) _

theorem run_of_value (engine : Engine) (h : c.expected.evalAt c.site.expected c.scope s = (.ok v, t)) :
    (c.run engine : Checking Event) s = (c.outcome >>= c.answer engine v) t :=
  Run.bind_of_ok (Run.attempt_of_ok h) _

theorem verdict_or_exhausted (c : Check) (engine : Engine) (s : Effects) :
    (∃ status t, c.Verdict engine s status t) ∨
      ∃ limit t, (c.run engine : Checking Event) s = (.error (.exhausted limit), t) := by
  rcases hv : c.expected.evalAt c.site.expected c.scope s with ⟨(e | limit) | v, t⟩
  · exact .inl ⟨_, _, .expectedThrows hv⟩
  · exact .inr ⟨limit, t, Run.bind_of_error (Run.attempt_of_exhausted hv) _⟩
  rw [run_of_value engine hv]
  rcases c.outcome_or_exhausted t with ⟨o, u, ho⟩ | ⟨limit, u, ho⟩
  · rw [Run.bind_of_ok ho]
    rcases c.judged_or_exhausted engine v o u with ⟨status, w, h⟩ | h
    · exact .inl ⟨status, w, .judged hv ho h⟩
    · exact .inr h
  · exact .inr ⟨limit, u, Run.bind_of_error ho _⟩

theorem run_of_verdict (h : c.Verdict engine s status t) :
    ∃ e, (c.run engine : Checking Event) s = (.ok e, t) ∧ e.status = status := by
  cases h with
  | expectedThrows he => exact ⟨_, run_of_throws engine he, rfl⟩
  | judged hv ho hjudged =>
    rw [run_of_value engine hv, Run.bind_of_ok ho]
    exact answer_of_judged hjudged

theorem verdict_of_run {e : Event} (h : (c.run engine : Checking Event) s = (.ok e, t)) :
    c.Verdict engine s e.status t := by
  rcases c.verdict_or_exhausted engine s with ⟨status, u, hverdict⟩ | ⟨limit, u, hexhausted⟩
  · obtain ⟨e', he', rfl⟩ := run_of_verdict hverdict
    cases h.symm.trans he'
    exact hverdict
  · cases h.symm.trans hexhausted

namespace Answered

theorem outcome (h : c.Answered engine) : (c.outcome : Checking Outcome).Total := by
  unfold Check.outcome
  cases hsubject : c.subject with
  | form form => exact (h.subject form hsubject).attempt
  | outcome o => exact .pure trivial

theorem answer (h : c.Answered engine) (hv : c.expected.evalAt c.site.expected c.scope s = (.ok v, t))
    (ho : (c.outcome : Checking Outcome) t = (.ok o, u)) : (c.answer engine v o).Total := by
  unfold Check.answer
  cases o with
  | error e => cases Strategy.ofValue v c.raise engine.schemas <;> exact .pure trivial
  | ok actual =>
    cases hstrategy : Strategy.ofValue v c.raise engine.schemas with
    | predicate f =>
      rw [Strategy.eq_of_predicate hstrategy]
      refine (h.predicate hv ho).attempt.bind fun answer _ => ?_
      cases answer <;> exact .pure trivial
    | schema name validator =>
      exact c.schemaEvent_total (h.schemas validator (Strategy.schemas_of_schema hstrategy)) name actual
    | throws _ | instances _ | pattern _ | equal _ => exact .pure trivial

theorem exists_verdict (h : c.Answered engine) (s : Effects) : ∃ status t, c.Verdict engine s status t := by
  rcases h.expected s with ⟨v, t, hv, -⟩ | ⟨e, t, he⟩
  · -- What the subject throws is an outcome too, so computing the outcome never throws.
    obtain ⟨o, u, ho⟩ : ∃ o u, (c.outcome : Checking Outcome) t = (.ok o, u) := by
      rcases h.outcome t with ⟨o, u, ho, -⟩ | ⟨e, u, he⟩
      · exact ⟨o, u, ho⟩
      · rcases c.outcome_or_exhausted t with ho | ⟨limit, w, hw⟩
        · exact ho
        · cases he.symm.trans hw
    rcases c.judged_or_exhausted engine v o u with ⟨status, w, hjudged⟩ | ⟨limit, w, hexhausted⟩
    · exact ⟨status, w, .judged hv ho hjudged⟩
    · rcases h.answer hv ho u with ⟨e, w', hw', -⟩ | ⟨e, w', hw'⟩ <;> cases hexhausted.symm.trans hw'
  · exact ⟨_, _, .expectedThrows he⟩

end Answered

/-- A check ends with one event, of the status that the rules give, and with the effects they give,
and it does end so if what it computes comes to an end. -/
theorem run_verdict (c : Check) (engine : Engine) (s : Effects) :
    (∀ status t, c.Verdict engine s status t ↔
      ∃ e, (c.run engine : Checking Event) s = (.ok e, t) ∧ e.status = status) ∧
    (c.Answered engine → ∃ status t, c.Verdict engine s status t) := by
  refine ⟨fun status t => ⟨run_of_verdict, ?_⟩, fun h => h.exists_verdict s⟩
  rintro ⟨e, he, rfl⟩
  exact verdict_of_run he

/-- A number that is odd is not as `even?` says. -/
theorem run_verdict_even :
    let scope : Scope := [("even?", .fn (.builtin (.test .even)))]
    let c : Check := { expected := .sym "even?", subject := .outcome (.ok (.int 3)), scope, site := [0] }
    c.Answered {} ∧ (∃ status t, c.Verdict {} {} status t) ∧
      ∃ e t, (c.run {} : Checking Event) {} = (.ok e, t) ∧ e.status = .fail := by
  intro scope c
  have heval : ∀ s, c.expected.evalAt c.site.expected c.scope s = (.ok (.fn (.builtin (.test .even))), s) :=
    fun s => congrFun (Form.evalAt_sym "even?" _ scope rfl) s
  have hcall : ∀ s, (Value.fn (.builtin (.test .even))).applyAt c.site.decision [.int 3] s = (.ok (.bool false), s) :=
    fun s => rfl
  have hanswered : c.Answered {} := {
    expected := fun s => .inl ⟨_, s, heval s, trivial⟩
    subject := fun form h => by cases h
    predicate := fun hv ho s => by
      cases (heval _).symm.trans hv
      cases ho
      exact .inl ⟨_, s, hcall s, trivial⟩
    schemas := fun validator h => by cases h }
  obtain ⟨e, he, hstatus⟩ := ((run_verdict c {} {}).1 .fail {}).1
    (.judged (heval {}) rfl (.predicateAnswers (hcall {})))
  exact ⟨hanswered, (run_verdict c {} {}).2 hanswered, e, {}, he, hstatus⟩

end Check

end Attest
