import Attest.Assertion
import Attest.Proofs.Computation
import Attest.Proofs.Extension
import Attest.Proofs.Loop
import Attest.Proofs.Within
/-!
# Two runs of one plan

A `Variation` says in what two runs of a plan may differ: their engines, scopes, texts and
messages. As long as forms evaluate alike in both scopes, the two runs make the same choices
everywhere: they end with the same defect, or with as many events of the same statuses
(`Variation.checkAt_alike`).
-/

namespace Attest

theorem withContext_congr {m m' : Option String} (h : m = m') (line : String) :
    withContext m line = withContext m' line := by
  rw [h]

/-- What two runs of a plan may differ in. -/
structure Variation where
  left : Engine
  right : Engine
  /-- The forms that are evaluated. -/
  forms : Form → Prop
  /-- The scopes that one run and the other may be in at the same time. -/
  scopes : Scope → Scope → Prop
  /-- Whether the texts of events agree. -/
  texts : Prop
  /-- The messages that one run and the other may have at the same time. -/
  messages : Option String → Option String → Prop
  parts : Form.Inherited forms
  literal : ∀ v, forms (.lit v)
  step : ∀ {form}, forms form → ∀ v last, forms (threadStep form v last)
  eval : ∀ {form s s'}, forms form → scopes s s' → ∀ site, form.evalAt site s = form.evalAt site s'
  extend : ∀ {s s'}, scopes s s' → ∀ ext, scopes (ext ++ s) (ext ++ s')
  schemas : left.schemas = right.schemas
  renderer : texts → left.renderer = right.renderer
  context : ∀ {m m'}, messages m m' → ∀ line, messages (withContext m line) (withContext m' line)
  reason : left.schemas ≠ none → ∀ text, messages (some text) (some text)

namespace Variation

variable {V : Variation}

/-- Two events that the variation allows for the same check. -/
structure EventAlike (V : Variation) (e e' : Event) : Prop where
  status : e.status = e'.status
  texts : V.texts → e.expected = e'.expected ∧ e.actual = e'.actual ∧ e.difference = e'.difference
  message : V.messages e.message e'.message

/-- Two checks of one expected form, whatever they are about. -/
structure SettingAlike (V : Variation) (c c' : Check) : Prop where
  expected : c.expected = c'.expected
  form : V.forms c.expected
  scope : V.scopes c.scope c'.scope
  raise : c.raise = c'.raise
  label : V.texts → c.label = c'.label
  message : V.messages c.message c'.message
  site : c.site = c'.site

/-- Two checks that are run alike. -/
structure CheckAlike (V : Variation) (c c' : Check) : Prop extends SettingAlike V c c' where
  outcome : ∀ ε : Type, (c.outcome : Run ε Outcome) = c'.outcome

/-- Two items whose runs end alike. -/
def ItemAlike (V : Variation) (i i' : Item) : Prop :=
  Run.Rel (List.Forall₂ V.EventAlike) (i.run V.left) (i'.run V.right)

/-- Two iterations over the same elements. -/
structure IterationAlike (V : Variation) (i i' : Iteration) : Prop where
  scope : V.scopes i.scope i'.scope
  bound : i.bound = i'.bound

/-! ## Checks -/

/-- Computing a form in both scopes gives the same outcome. -/
theorem outcome_eq {c c' : Check} {form : Form} (hf : V.forms form) (hs : V.scopes c.scope c'.scope)
    (hsite : c.site = c'.site) (hc : c.subject = .form form) (hc' : c'.subject = .form form) (ε : Type) :
    (c.outcome : Run ε Outcome) = c'.outcome := by
  unfold Check.outcome
  rw [hc, hc']
  show Run.attempt _ = Run.attempt _
  rw [V.eval hf hs, hsite]

namespace SettingAlike

variable {c c' : Check}

theorem expectedText (h : V.SettingAlike c c') (ht : V.texts) : c.expectedText = c'.expectedText := by
  unfold Check.expectedText
  rw [h.label ht, h.expected]

theorem event (h : V.SettingAlike c c') (status : Status) {actual actual' : String}
    (ha : V.texts → actual = actual') : V.EventAlike (c.event status actual) (c'.event status actual') where
  status := rfl
  texts ht := ⟨h.expectedText ht, ha ht, rfl⟩
  message := h.message

theorem thrownEvent (h : V.SettingAlike c c') (t : Thrown) :
    V.EventAlike (c.thrownEvent t) (c'.thrownEvent t) := h.event .error fun _ => rfl

theorem comparison (h : V.SettingAlike c c') (holds : Bool) (actual : String) :
    V.EventAlike (c.comparison holds actual) (c'.comparison holds actual) := h.event _ fun _ => rfl

theorem throwsEvent (h : V.SettingAlike c c') (expected : ErrorClass) (o : Outcome) :
    V.EventAlike (c.throwsEvent expected o) (c'.throwsEvent expected o) := by
  cases o with
  | error t => exact h.comparison _ _
  | ok v => exact h.event .fail fun _ => rfl

theorem predicateEvent {ε : Type} (h : V.SettingAlike c c') (f actual : Value) :
    Run.Rel V.EventAlike (c.predicateEvent f actual : Run ε Event) (c'.predicateEvent f actual) := by
  have hcall : V.texts → c.expectedText = c'.expectedText := h.expectedText
  unfold Check.predicateEvent
  refine Run.Rel.bind_same (by rw [h.site]) fun r => ?_
  cases r with
  | error t => exact .pure (h.thrownEvent t)
  | ok answer =>
    refine .pure ?_
    by_cases ha : answer.isTruthy = true
    · rw [if_pos ha, if_pos ha]
      exact h.event .pass fun ht => by rw [hcall ht]
    · rw [if_neg ha, if_neg ha]
      exact h.event .fail fun ht => by rw [hcall ht]

theorem schemaEvent {ε : Type} (h : V.SettingAlike c c') (hr : ∀ text, V.messages (some text) (some text))
    (validator : Validator) (name : String) (actual : Value) :
    Run.Rel V.EventAlike (c.schemaEvent validator name actual : Run ε Event)
      (c'.schemaEvent validator name actual) := by
  unfold Check.schemaEvent
  refine Run.Rel.bind_same (by rw [h.site]) fun accepted => ?_
  cases accepted
  · refine Run.Rel.bind_same (by rw [h.site]) fun reason => .pure ?_
    exact ⟨rfl, fun ht => ⟨h.expectedText ht, rfl, rfl⟩, hr reason⟩
  · exact .pure (h.event .pass fun _ => rfl)

theorem equalEvent (h : V.SettingAlike c c') (expected actual : Value) :
    V.EventAlike (c.equalEvent V.left.renderer expected actual)
      (c'.equalEvent V.right.renderer expected actual) := by
  unfold Check.equalEvent
  by_cases heq : (expected == actual) = true
  · rw [if_pos heq, if_pos heq]
    exact h.event .pass fun _ => rfl
  · rw [if_neg heq, if_neg heq]
    refine ⟨?_, fun ht => ?_, ?_⟩
    · cases V.left.renderer <;> cases V.right.renderer <;> rfl
    · rw [V.renderer ht]
      cases V.right.renderer with
      | none => exact ⟨h.expectedText ht, rfl, rfl⟩
      | some render => exact ⟨rfl, rfl, rfl⟩
    · cases V.left.renderer <;> cases V.right.renderer <;> exact h.message

theorem judge {ε : Type} (h : V.SettingAlike c c') (strategy : Strategy) (o : Outcome)
    (hr : ∀ name validator, strategy = .schema name validator → ∀ text, V.messages (some text) (some text)) :
    Run.Rel V.EventAlike (c.judge V.left strategy o : Run ε Event) (c'.judge V.right strategy o) := by
  cases strategy with
  | throws expected => exact .pure (h.throwsEvent expected o)
  | schema name validator =>
    cases o with
    | error t => exact .pure (h.thrownEvent t)
    | ok actual => exact h.schemaEvent (hr name validator rfl) validator name actual
  | predicate f =>
    cases o with
    | error t => exact .pure (h.thrownEvent t)
    | ok actual => exact h.predicateEvent f actual
  | instances expected =>
    cases o with
    | error t => exact .pure (h.thrownEvent t)
    | ok actual => exact .pure (h.comparison _ _)
  | pattern p =>
    cases o with
    | error t => exact .pure (h.thrownEvent t)
    | ok actual => exact .pure (h.comparison _ _)
  | equal expected =>
    cases o with
    | error t => exact .pure (h.thrownEvent t)
    | ok actual => exact .pure (h.equalEvent expected actual)

/-- The parts of checks that are alike are alike. -/
theorem part (h : V.SettingAlike c c') (i : Nat) {expected : Form} (he : V.forms expected)
    {subject : Subject}
    (ho : ∀ ε : Type, ((c.part i expected subject).outcome : Run ε Outcome) = (c'.part i expected subject).outcome) :
    V.CheckAlike (c.part i expected subject) (c'.part i expected subject) where
  expected := rfl
  form := he
  outcome := ho
  scope := h.scope
  raise := h.raise
  label _ := rfl
  message := h.message
  site := congrArg (Site.part · i) h.site

end SettingAlike

/-- Running a check makes the same calls in both runs, and ends in an event of the same status. -/
theorem CheckAlike.run {c c' : Check} {ε : Type} (h : V.CheckAlike c c') :
    Run.Rel V.EventAlike (c.run V.left : Run ε Event) (c'.run V.right) := by
  unfold Check.run
  have heval := V.eval h.form h.scope c.site.expected
  refine Run.Rel.bind_same (by rw [heval, h.expected, h.site]) fun r => ?_
  cases r with
  | error t => exact .pure (h.thrownEvent t)
  | ok expected =>
    refine Run.Rel.bind_same (h.outcome ε) fun o => ?_
    rw [← h.raise, ← V.schemas]
    refine h.judge _ o fun name validator hs => ?_
    exact V.reason (by simp [Strategy.schemas_of_schema hs])

/-- Where texts and messages agree, nothing of the events differs. -/
theorem events_eq (ht : V.texts) (hm : ∀ m m', V.messages m m' → m = m') {es es' : List Event}
    (h : List.Forall₂ V.EventAlike es es') : es = es' := by
  induction h with
  | nil => rfl
  | @cons e e' es es' he _ ih =>
    obtain ⟨hexpected, hactual, hdifference⟩ := he.texts ht
    have hhead : e = e' := by
      have hstatus := he.status
      have hmessage := hm _ _ he.message
      clear he
      cases e
      cases e'
      simp_all
    rw [hhead, ih]

/-! ## Items -/

theorem EventAlike.isPass {e e' : Event} (h : V.EventAlike e e') : e.isPass = e'.isPass := by
  unfold Event.isPass
  rw [h.status]

theorem eventsOf_alike (status : Status) {es es' : List Event} (h : List.Forall₂ V.EventAlike es es') :
    List.Forall₂ V.EventAlike (eventsOf status es) (eventsOf status es') := by
  unfold eventsOf
  induction h with
  | nil => exact .nil
  | @cons e e' es es' he _ ih =>
    rw [List.filter_cons, List.filter_cons, he.status]
    split
    · exact .cons he ih
    · exact ih

/-- Elevation looks at statuses alone. -/
theorem elevate_alike {es es' : List Event} (h : List.Forall₂ V.EventAlike es es') :
    List.Forall₂ V.EventAlike (elevate es) (elevate es') := by
  have hany : es.any Event.isPass = es'.any Event.isPass := by
    induction h with
    | nil => rfl
    | cons he _ ih => rw [List.any_cons, List.any_cons, he.isPass, ih]
  unfold elevate
  rw [hany]
  split
  · exact eventsOf_alike .pass h
  · exact List.rel_append (eventsOf_alike .error h) (eventsOf_alike .fail h)

theorem runAll_alike {is is' : List Item} (h : List.Forall₂ V.ItemAlike is is') :
    Run.Rel (List.Forall₂ V.EventAlike) (Item.runAll V.left is) (Item.runAll V.right is') := by
  rw [Item.runAll_eq_collect, Item.runAll_eq_collect]
  exact Run.collect_rel h fun _ _ hi => hi

namespace CheckAlike

variable {c c' : Check}

theorem item (h : V.CheckAlike c c') : V.ItemAlike (.check c) (.check c') :=
  h.run.bind fun _ _ he => .pure (.cons he .nil)

theorem brokenItem (h : V.CheckAlike c c') (t : Thrown) :
    V.ItemAlike (.broken (c.thrownEvent t)) (.broken (c'.thrownEvent t)) :=
  .pure (.cons (h.thrownEvent t) .nil)

/-- The checks of one element. -/
theorem element (h : V.CheckAlike c c') (v : Value) :
    V.CheckAlike { c with subject := .outcome (.ok v), site := c.site.part 0 }
      { c' with subject := .outcome (.ok v), site := c'.site.part 0 } where
  expected := h.expected
  form := h.form
  outcome _ := rfl
  scope := h.scope
  raise := h.raise
  label := h.label
  message := h.message
  site := congrArg (Site.part · 0) h.site

/-- The checks of the entries that a map has under the expected keys. -/
theorem entries (h : V.CheckAlike c c') (expected entries : List (Value × Value)) :
    V.CheckAlike (Search.entriesCheck c expected entries) (Search.entriesCheck c' expected entries) where
  expected := rfl
  form := V.literal _
  outcome _ := rfl
  scope := h.scope
  raise := h.raise
  label ht := congrArg some (h.expectedText ht)
  message := h.message
  site := h.site

theorem runEntries (h : V.CheckAlike c c') (entries : List (Value × Value)) :
    Run.Rel V.EventAlike (Search.runEntries c V.left entries) (Search.runEntries c' V.right entries) := by
  unfold Search.runEntries
  have heval := V.eval h.form h.scope c.site.expected
  refine Run.Rel.bind_same (by rw [heval, h.expected, h.site]) fun r => ?_
  rcases r with t | v
  · exact .pure (h.thrownEvent t)
  · cases v with
    | map expected => exact (h.entries expected entries).run
    | _ => exact .raise _ _

variable {each each' : Check → Checking (List Event)}

theorem eventsOf (h : V.CheckAlike c c')
    (heach : ∀ k k', V.CheckAlike k k' → Run.Rel (List.Forall₂ V.EventAlike) (each k) (each' k'))
    (items : List Value) :
    Run.Rel (List.Forall₂ V.EventAlike) (Search.eventsOf each c items) (Search.eventsOf each' c' items) := by
  rw [Search.eventsOf_eq_collect, Search.eventsOf_eq_collect]
  exact Run.collect_rel_same (fun v => heach _ _ (h.element v)) items

/-- A search goes through the same elements in both runs. -/
theorem search (h : V.CheckAlike c c')
    (heach : ∀ k k', V.CheckAlike k k' → Run.Rel (List.Forall₂ V.EventAlike) (each k) (each' k')) :
    Run.Rel (List.Forall₂ V.EventAlike) (Search.run c each V.left) (Search.run c' each' V.right) := by
  unfold Search.run
  refine Run.Rel.bind_same (h.outcome _) fun o => ?_
  cases o with
  | error t => exact .pure (.cons (h.thrownEvent t) .nil)
  | ok collection =>
    refine Run.Rel.bind_same rfl fun searched => ?_
    cases searched with
    | elements items =>
      exact (h.eventsOf heach items).bind fun es es' he => .pure (elevate_alike he)
    | entries under => exact (h.runEntries under).bind fun e e' he => .pure (.cons he .nil)

end CheckAlike

/-! ## Going through collections -/

theorem bindAll_alike {bindings : List (Binding × Form)} (hf : ∀ p ∈ bindings, V.forms p.2) (site : Site)
    (i : Nat) {s s' : Scope} (h : V.scopes s s') :
    Run.Rel V.scopes (Traversal.bindAll site i bindings s) (Traversal.bindAll site i bindings s') := by
  induction bindings generalizing i s s' with
  | nil => exact .pure h
  | cons p rest ih =>
    obtain ⟨b, form⟩ := p
    unfold Traversal.bindAll
    refine Run.Rel.bind_same (V.eval (hf _ List.mem_cons_self) h _) fun v => ?_
    refine (b.bind_rel v (V.extend h)).bind fun inner inner' hi => ?_
    exact ih (fun p hp => hf p (List.mem_cons_of_mem _ hp)) (i + 1) hi

theorem forEach_alike {go go' : Value → Eval (List Iteration)}
    (h : ∀ v, Run.Rel (List.Forall₂ V.IterationAlike) (go v) (go' v)) (vs : List Value) :
    Run.Rel (List.Forall₂ V.IterationAlike) (Traversal.forEach go vs) (Traversal.forEach go' vs) := by
  rw [Traversal.forEach_eq_collect, Traversal.forEach_eq_collect]
  exact Run.collect_rel_same h vs

/-- The clauses of a traversal lead to as many iterations in both scopes. -/
theorem walk_alike {clauses : List Clause} (hc : ∀ c ∈ clauses, c.Within V.forms) (site : Site)
    {s s' : Scope} (h : V.scopes s s') (bound : List String) :
    Run.Rel (List.Forall₂ V.IterationAlike) (Traversal.walk clauses site s bound)
      (Traversal.walk clauses site s' bound) := by
  induction clauses generalizing site s s' bound with
  | nil => exact .pure (.cons ⟨h, rfl⟩ .nil)
  | cons c rest ih =>
    have hhead := hc c List.mem_cons_self
    have hrest := fun c' hc' => hc c' (List.mem_cons_of_mem _ hc')
    cases c with
    | each pattern binding source =>
      unfold Traversal.walk
      refine Run.Rel.bind_same (V.eval hhead h _) fun collection => ?_
      refine Run.Rel.bind_same rfl fun elements => forEach_alike (fun v => ?_) elements
      exact (binding.bind_rel v (V.extend h)).bind fun inner inner' hi => ih hrest _ hi _
    | test form =>
      unfold Traversal.walk
      refine Run.Rel.bind_same (V.eval hhead h _) fun answer => ?_
      by_cases ha : answer.isTruthy = true
      · rw [if_pos ha, if_pos ha]
        exact ih hrest _ h _
      · rw [if_neg ha, if_neg ha]
        exact .pure .nil
    | bind bindings =>
      unfold Traversal.walk
      exact (bindAll_alike hhead _ 0 h).bind fun inner inner' hi => ih hrest _ hi _

/-! ## Expanding -/

namespace CheckAlike

variable {c c' : Check}

theorem stepValue (h : V.CheckAlike c c') (i : Nat) (thread : Thread) {step : Form} (hs : V.forms step)
    (value : Value) : Plan.stepValue c i thread step value = Plan.stepValue c' i thread step value := by
  have hform : V.forms (Plan.stepForm thread step value) := V.step hs value _
  unfold Plan.stepValue
  rw [V.eval hform h.scope, h.site]

theorem stepCheck (h : V.CheckAlike c c') (i : Nat) (thread : Thread) {expected : Form}
    (he : V.forms expected) (step : Form) (value : Value) :
    V.CheckAlike (Plan.stepCheck c i thread expected step value)
      (Plan.stepCheck c' i thread expected step value) where
  expected := rfl
  form := he
  outcome _ := rfl
  scope := h.scope
  raise := rfl
  label _ := rfl
  message := V.context h.message _
  site := congrArg (Site.part · i) h.site

theorem iteration (h : V.CheckAlike c c') (clauses : List Clause) {body : Form} (hb : V.forms body)
    {i i' : Iteration} (hi : V.IterationAlike i i') :
    V.CheckAlike (Plan.iterationCheck c clauses body i) (Plan.iterationCheck c' clauses body i') where
  expected := h.expected
  form := h.form
  outcome := outcome_eq hb hi.scope (congrArg (Traversal.siteAfter · clauses) h.site) rfl rfl
  scope := hi.scope
  raise := h.raise
  label := h.label
  message := by
    show V.messages (withContext c.message i.context) (withContext c'.message i'.context)
    unfold Iteration.context
    rw [hi.bound]
    exact V.context h.message _
  site := congrArg (Traversal.siteAfter · clauses) h.site

end CheckAlike

theorem expandIterations_alike {expand expand' : Iteration → Checking (List Item)}
    (h : ∀ i i', V.IterationAlike i i' → Run.Rel (List.Forall₂ V.ItemAlike) (expand i) (expand' i'))
    {is is' : List Iteration} (hi : List.Forall₂ V.IterationAlike is is') :
    Run.Rel (List.Forall₂ V.ItemAlike) (Plan.expandIterations expand is)
      (Plan.expandIterations expand' is') := by
  rw [Plan.expandIterations_eq_collect, Plan.expandIterations_eq_collect]
  exact Run.collect_rel hi h

mutual

/-- A plan makes as many items of both checks, and each two of them run alike. -/
theorem expand_alike : (plan : Plan) → plan.Within V.forms → ∀ {c c' : Check}, V.CheckAlike c c' →
    Run.Rel (List.Forall₂ V.ItemAlike) (plan.expand c) (plan.expand c')
  | .primitive, _, c, c', h => by
    simp only [Plan.expand]
    exact .pure (.cons h.item .nil)
  | .malformed d, _, c, c', _ => by
    simp only [Plan.expand]
    exact .raise _ d
  | .conjunction parts, hp, c, c', h => by
    simp only [Plan.expand]
    exact Run.Rel.bind_same (h.outcome _) fun o => expandParts_alike parts hp 0 h o
  | .pipeline thread steps, hp, c, c', h => by
    simp only [Plan.expand]
    refine Run.Rel.bind_same (h.outcome _) fun o => ?_
    cases o with
    | error t => exact .pure (.cons (h.brokenItem t) .nil)
    | ok value => exact expandSteps_alike steps hp 0 h thread value
  | .destructure binding pairs, hp, c, c', h => by
    simp only [Plan.expand]
    refine Run.Rel.bind_same (h.outcome _) fun o => ?_
    cases o with
    | error t => exact .pure (.cons (h.brokenItem t) .nil)
    | ok value =>
      have hb := binding.bind_extending value
      show Run.Rel _ (match binding.bind value c.scope with | .error t => _ | .ok scope => _)
        (match binding.bind value c'.scope with | .error t => _ | .ok scope => _)
      cases hs : binding.bind value c.scope with
      | error t =>
        rw [hb.error_of hs c'.scope]
        exact .pure (.cons (h.brokenItem t) .nil)
      | ok scope =>
        obtain ⟨ext, rfl, hother⟩ := hb.exists_append hs
        rw [hother c'.scope]
        exact expandPairs_alike pairs hp 0 { h.toSettingAlike with scope := V.extend h.scope ext }
  | .perElement clauses body next, ⟨hc, hb, hn⟩, c, c', h => by
    simp only [Plan.expand]
    rw [← h.site]
    refine (walk_alike hc c.site h.scope []).attempt.bind fun r r' hr => ?_
    cases r with
    | error t =>
      cases r' with
      | error t' => cases hr; exact .pure (.cons (h.brokenItem t) .nil)
      | ok is' => exact hr.elim
    | ok is =>
      cases r' with
      | error t' => exact hr.elim
      | ok is' => exact expandIterations_alike (fun i i' hi => expand_alike next hn (h.iteration clauses hb hi)) hr
  | .contains collection next, ⟨hcoll, hn⟩, c, c', h => by
    simp only [Plan.expand]
    refine .pure (.cons ?_ .nil)
    have hsub : V.CheckAlike { c with subject := .form collection } { c' with subject := .form collection } :=
      { h with outcome := outcome_eq hcoll h.scope h.site rfl rfl }
    exact hsub.search fun k k' hk => (expand_alike next hn hk).bind fun is is' hi => runAll_alike hi

theorem expandParts_alike : (parts : List (Form × Plan)) → Plan.WithinParts V.forms parts → (i : Nat) →
    ∀ {c c' : Check}, V.CheckAlike c c' → ∀ outcome : Outcome,
    Run.Rel (List.Forall₂ V.ItemAlike) (Plan.expandParts parts i c outcome) (Plan.expandParts parts i c' outcome)
  | [], _, i, c, c', _, outcome => by
    simp only [Plan.expandParts]
    exact .pure .nil
  | (expected, plan) :: rest, ⟨he, hp, hrest⟩, i, c, c', h, outcome => by
    simp only [Plan.expandParts]
    refine (expand_alike plan hp (h.part i he fun ε => rfl)).bind fun first first' hf => ?_
    refine (expandParts_alike rest hrest (i + 1) h outcome).bind fun others others' ho => ?_
    exact .pure (List.rel_append hf ho)

theorem expandSteps_alike : (steps : List (Form × Form × Plan)) → Plan.WithinPairs V.forms steps → (i : Nat) →
    ∀ {c c' : Check}, V.CheckAlike c c' → ∀ (thread : Thread) (value : Value),
    Run.Rel (List.Forall₂ V.ItemAlike) (Plan.expandSteps steps i c thread value)
      (Plan.expandSteps steps i c' thread value)
  | [], _, i, c, c', _, thread, value => by
    simp only [Plan.expandSteps]
    exact .pure .nil
  | (expected, step, plan) :: rest, ⟨he, hs, hp, hrest⟩, i, c, c', h, thread, value => by
    simp only [Plan.expandSteps]
    refine Run.Rel.bind_same (h.stepValue i thread hs value) fun made => ?_
    refine (expand_alike plan hp (h.stepCheck i thread he step made)).bind fun first first' hf => ?_
    refine (expandSteps_alike rest hrest (i + 1) h thread value).bind fun others others' ho => ?_
    exact .pure (List.rel_append hf ho)

theorem expandPairs_alike : (pairs : List (Form × Form × Plan)) → Plan.WithinPairs V.forms pairs → (i : Nat) →
    ∀ {c c' : Check}, V.SettingAlike c c' →
    Run.Rel (List.Forall₂ V.ItemAlike) (Plan.expandPairs pairs i c) (Plan.expandPairs pairs i c')
  | [], _, i, c, c', _ => by
    simp only [Plan.expandPairs]
    exact .pure .nil
  | (expected, actual, plan) :: rest, ⟨he, ha, hp, hrest⟩, i, c, c', h => by
    simp only [Plan.expandPairs]
    have hpart : V.CheckAlike (c.part i expected (.form actual)) (c'.part i expected (.form actual)) :=
      h.part i he (outcome_eq ha h.scope (congrArg (Site.part · i) h.site) rfl rfl)
    refine (expand_alike plan hp hpart).bind fun first first' hf => ?_
    refine (expandPairs_alike rest hrest (i + 1) h).bind fun others others' ho => ?_
    exact .pure (List.rel_append hf ho)

end

/-- Two assertions of one plan end with the same defect or with events that are alike. -/
theorem checkAt_alike {a a' : Assertion} {site : Site} {s s' : Scope} (hplan : a.plan = a'.plan)
    (hw : a.plan.Within V.forms) (h : V.CheckAlike (a.check site s) (a'.check site s')) :
    Run.Rel (List.Forall₂ V.EventAlike) (V.left.checkAt a site s) (V.right.checkAt a' site s') := by
  unfold Engine.checkAt Assertion.expandAt
  rw [← hplan]
  exact (expand_alike a.plan hw h).bind fun is is' hi => runAll_alike hi

end Variation

end Attest
