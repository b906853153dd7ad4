import Attest.Assertion
import Attest.Proofs.Logic
import Attest.Proofs.Loop
import Attest.Proofs.Within
/-!
# Checks within a discipline

Under a logic of computations, whatever evaluation keeps to (`Discipline.Upheld`), expanding a
plan keeps to as well, and makes items that do (`Discipline.expand_gives`). Running an item may
ask the schemas of the engine, which have to keep to it too (`Discipline.Serves`).
-/

namespace Attest

/-- A computation gives what is `P`, or throws. -/
def Run.Logic.Gives {ε α : Type} (L : Run.Logic Unit) (P : α → Prop) (x : Run ε α) : Prop :=
  L.Holds P (fun _ => True) fun _ => x

/-! ## Giving something -/

section Gives

variable {ε α β : Type} {P : α → Prop} {Q : β → Prop} {L : Run.Logic Unit}

theorem gives_pure {a : α} (h : P a) : L.Gives P (pure a : Run ε α) := L.pure h

theorem gives_raise (e : ε) : L.Gives P (Run.raise e : Run ε α) := L.raise trivial

theorem gives_bind {x : Run ε α} {f : α → Run ε β} (hx : L.Gives P x)
    (hf : ∀ a, P a → L.Gives Q (f a)) : L.Gives Q (x >>= f) := L.bind hx hf

/-- What everything that is collected has, if each part has it. -/
theorem Run.Logic.collect_holds {ι : Type} {L : Run.Logic ι} {P : β → Prop} {E : ε → Prop}
    {each : ι → α → Run ε (List β)} {as : List α}
    (h : ∀ a ∈ as, L.Holds (fun bs => ∀ b ∈ bs, P b) E fun i => each i a) :
    L.Holds (fun bs => ∀ b ∈ bs, P b) E fun i => Run.collect (each i) as := by
  induction as with
  | nil => exact L.pure nofun
  | cons a as ih =>
    obtain ⟨hhead, htail⟩ := List.forall_mem_cons.1 h
    unfold Run.collect
    refine L.bind hhead fun first hf => L.bind (ih htail) fun rest hr => ?_
    exact L.pure (List.forall_mem_append.2 ⟨hf, hr⟩)

/-- What the items of every iteration have, all of them have. -/
theorem Plan.expandIterations_gives {R : Item → Prop} {expand : Iteration → Checking (List Item)}
    {is : List Iteration} (h : ∀ i ∈ is, L.Gives (fun items => ∀ x ∈ items, R x) (expand i)) :
    L.Gives (fun items => ∀ x ∈ items, R x) (Plan.expandIterations expand is) := by
  rw [expandIterations_eq_collect]
  exact Run.Logic.collect_holds h

/-- What the events of every item have, all of them have. -/
theorem Item.runAll_gives {R : Event → Prop} {engine : Engine} {items : List Item}
    (h : ∀ i ∈ items, L.Gives (fun es => ∀ e ∈ es, R e) (i.run engine)) :
    L.Gives (fun es => ∀ e ∈ es, R e) (Item.runAll engine items) := by
  rw [runAll_eq_collect]
  exact Run.Logic.collect_holds h

theorem gives_collect {each : α → Run ε (List β)} {as : List α}
    (h : ∀ a ∈ as, L.Gives (fun _ => True) (each a)) : L.Gives (fun _ => True) (Run.collect each as) := by
  have hall : L.Gives (fun bs => ∀ b ∈ bs, True) (Run.collect each as) :=
    Run.Logic.collect_holds fun a ha => L.mono (h a ha) (fun _ _ _ _ => trivial) fun _ he => he
  exact L.mono hall (fun _ _ => trivial) fun _ he => he

end Gives

namespace Discipline

variable {ε α : Type} {P : α → Prop}

variable (D : Discipline) (L : Run.Logic Unit)

/-- Evaluating and calling keep to the discipline. -/
structure Upheld : Prop where
  evalAt : ∀ {form}, D.forms form → ∀ site {scope}, D.scopes scope →
    L.Holds D.values D.Throws fun _ => form.evalAt site scope
  applyAt : ∀ {f}, D.values f → ∀ site {args}, D.All args →
    L.Holds D.values D.Throws fun _ => f.applyAt site args

/-- The schemas of an engine are asked within the logic. -/
def Serves (engine : Engine) : Prop :=
  ∀ validator, engine.schemas = some validator → ∀ site name v, D.values v →
    L.Gives (fun _ => True) (validator.validate site name v) ∧
      L.Gives (fun _ => True) (validator.explain site name v)

/-- The value or the error of an outcome may be there. -/
abbrev OfOutcome : Outcome → Prop := D.Keeps D.values

/-- What a check is about may be there. -/
def OfSubject : Subject → Prop
  | .form form => D.forms form
  | .outcome o => D.OfOutcome o

/-- The forms and the scope of a check may be there. -/
structure OfCheck (c : Check) : Prop where
  expected : D.forms c.expected
  subject : D.OfSubject c.subject
  scope : D.scopes c.scope

/-- An item that runs within the logic. -/
def Runs (item : Item) : Prop := ∀ engine, D.Serves L engine → L.Gives (fun _ => True) (item.run engine)

variable {D L}

/-- Where stopping at a limit and the probes keep to disciplines that cover all closures, evaluation does. -/
theorem upheld_of_probes {κ : Type} {D : κ → Discipline} (hD : Covers D)
    (hstop : ∀ k limit, L.Holds (D k).values (D k).Throws fun _ => Run.stop limit)
    (hprobe : ∀ k p args, (D k).values (.fn (.probe p)) → (D k).All args →
      L.Holds (D k).values (D k).Throws fun _ => p.call args) (k : κ) : (D k).Upheld L := by
  obtain ⟨hev, hcall⟩ := holds_of_depth hD hstop hprobe nestingLimit k
  exact ⟨fun hf site _ hs => hev _ hf site hs, fun hf site _ ha => hcall _ _ hf ha site⟩

/-- What is attempted gives a value or an error that may be there. -/
theorem attempt_gives {x : Eval α} (h : L.Holds P D.Throws fun _ => x) :
    L.Gives (D.Keeps P) (Run.attempt x : Run ε (Except Thrown α)) := by
  refine L.mono (L.attempt h) (fun r hr => ?_) fun _ he => he
  cases r with
  | error t => exact hr.2 t rfl
  | ok a => exact hr.1 a rfl

/-! ## Asking schemas -/

section Schemas

variable {registry : Registry} {name : String}

/-- What the test of a schema is may be there. -/
def OfSchema (D : Discipline) : Schema → Prop
  | .test f _ => D.values f
  | _ => True

theorem refusal_gives (hup : D.Upheld L) {schema : Schema} (h : D.OfSchema schema) (site : Site) {v : Value}
    (hv : D.values v) : L.Gives (fun _ => True) (schema.refusal? site v : Run ε (Option String)) := by
  cases schema with
  | instances c => exact gives_pure trivial
  | keys required => cases v <;> exact gives_pure trivial
  | test f reason =>
    refine gives_bind (attempt_gives (hup.applyAt h site (all_single hv))) fun r _ => ?_
    cases r with
    | error t => exact gives_pure trivial
    | ok answer => exact gives_pure trivial

theorem ofSchema_of_find? (h : ∀ p ∈ registry, D.OfSchema p.2) {schema : Schema}
    (hs : registry.find? name = some schema) : D.OfSchema schema := by
  unfold Registry.find? at hs
  obtain ⟨p, hp, rfl⟩ := Option.map_eq_some_iff.1 hs
  exact h p (List.mem_of_find?_eq_some hp)

theorem accepts_gives (hup : D.Upheld L) (h : ∀ p ∈ registry, D.OfSchema p.2) (site : Site) {v : Value}
    (hv : D.values v) : L.Gives (fun _ => True) (registry.accepts site name v : Run ε Bool) := by
  unfold Registry.accepts
  cases hs : registry.find? name with
  | none => exact gives_pure trivial
  | some schema =>
    exact gives_bind (refusal_gives hup (ofSchema_of_find? h hs) site hv) fun r _ => gives_pure trivial

theorem explanation_gives (hup : D.Upheld L) (h : ∀ p ∈ registry, D.OfSchema p.2) (site : Site) {v : Value}
    (hv : D.values v) : L.Gives (fun _ => True) (registry.explanation site name v : Run ε String) := by
  unfold Registry.explanation
  cases hs : registry.find? name with
  | none => exact gives_pure trivial
  | some schema =>
    refine gives_bind (refusal_gives hup (ofSchema_of_find? h hs) site hv) fun r _ => ?_
    cases r with
    | none => exact gives_pure trivial
    | some reason => exact gives_pure trivial

end Schemas

/-! ## Running checks -/

theorem outcome_gives (hup : D.Upheld L) {c : Check} (h : D.OfSubject c.subject) (hs : D.scopes c.scope) :
    L.Gives D.OfOutcome (c.outcome : Run ε Outcome) := by
  unfold Check.outcome
  split
  · rename_i form hform
    rw [hform] at h
    exact attempt_gives (hup.evalAt h _ hs)
  · rename_i o ho
    rw [ho] at h
    exact gives_pure h

theorem expected_gives (hup : D.Upheld L) {c : Check} (h : D.forms c.expected) (hs : D.scopes c.scope) :
    L.Gives D.OfOutcome (Run.attempt (c.expected.evalAt c.site.expected c.scope) : Run ε Outcome) :=
  attempt_gives (hup.evalAt h _ hs)

variable {engine : Engine}

theorem judge_gives (hup : D.Upheld L) (hengine : D.Serves L engine) {c : Check} {expected : Value}
    (he : D.values expected) {o : Outcome} (ho : D.OfOutcome o) :
    L.Gives (fun _ => True)
      (c.judge engine (.ofValue expected c.raise engine.schemas) o : Run ε Event) := by
  cases hst : Strategy.ofValue expected c.raise engine.schemas with
  | throws cls => exact gives_pure trivial
  | schema name validator =>
    cases o with
    | error t => exact gives_pure trivial
    | ok actual =>
      have hasked := hengine validator (Strategy.schemas_of_schema hst)
      refine gives_bind (L.widen (hasked _ name actual ho).1) fun b _ => ?_
      split
      · exact gives_pure trivial
      · exact gives_bind (L.widen (hasked _ name actual ho).2) fun r _ => gives_pure trivial
  | predicate f =>
    cases o with
    | error t => exact gives_pure trivial
    | ok actual =>
      have hf : D.values f := Strategy.eq_of_predicate hst ▸ he
      refine gives_bind (attempt_gives (hup.applyAt hf _ (all_single ho))) fun r _ => ?_
      split
      · exact gives_pure trivial
      · exact gives_pure trivial
  | instances cls => cases o <;> exact gives_pure trivial
  | pattern p => cases o <;> exact gives_pure trivial
  | equal v => cases o <;> exact gives_pure trivial

theorem run_gives (hup : D.Upheld L) (hengine : D.Serves L engine) {c : Check} (h : D.OfCheck c) :
    L.Gives (fun _ => True) (c.run engine : Run ε Event) := by
  unfold Check.run
  refine gives_bind (expected_gives hup h.expected h.scope) fun r hr => ?_
  cases r with
  | error t => exact gives_pure trivial
  | ok expected =>
    exact gives_bind (outcome_gives hup h.subject h.scope) fun o ho => judge_gives hup hengine hr ho

/-! ## Running items -/

/-- What a map has under the keys of another one may be there as well. -/
theorem values_projection {keys entries : List (Value × Value)} (hk : D.values (.map keys))
    (he : D.values (.map entries)) : D.values (.map (Search.projection keys entries)) :=
  D.select hk fun _ _ _ hv => values_find? (D.entries he) hv

theorem runEntries_gives (hup : D.Upheld L) (hengine : D.Serves L engine) {c : Check} (h : D.OfCheck c)
    {entries : List (Value × Value)} (he : D.values (.map entries)) :
    L.Gives (fun _ => True) (Search.runEntries c engine entries) := by
  unfold Search.runEntries
  refine gives_bind (expected_gives hup h.expected h.scope) fun r hr => ?_
  split
  · exact gives_pure trivial
  · rename_i expected
    exact run_gives hup hengine ⟨D.literal.2 hr, values_projection hr he, h.scope⟩
  · exact gives_raise _

theorem runAll_gives {items : List Item} (h : ∀ i ∈ items, D.Runs L i) (hengine : D.Serves L engine) :
    L.Gives (fun _ => True) (Item.runAll engine items) := by
  rw [Item.runAll_eq_collect]
  exact gives_collect fun i hi => h i hi engine hengine

/-- What there is to search in a value is made of values in it. -/
def OfSearched (D : Discipline) : Searched → Prop
  | .elements items => D.All items
  | .entries under => D.values (.map under)

theorem searched_keeps {v : Value} (h : D.values v) {searched : Searched}
    (hs : Searched.ofValue v = .ok searched) : D.OfSearched searched := by
  cases v <;> simp only [Searched.ofValue, Except.ok.injEq, reduceCtorEq] at hs <;> subst hs
  case list => exact D.list.1 h
  case set => exact D.elements h
  case map => exact h

theorem eventsOf_gives {c : Check} (h : D.OfCheck c) {each : Check → Checking (List Event)}
    (heach : ∀ k, D.OfCheck k → L.Gives (fun _ => True) (each k)) {items : List Value} (hi : D.All items) :
    L.Gives (fun _ => True) (Search.eventsOf each c items) := by
  rw [Search.eventsOf_eq_collect]
  exact gives_collect fun v hv => heach _ ⟨h.expected, hi v hv, h.scope⟩

theorem runs_check (hup : D.Upheld L) {c : Check} (h : D.OfCheck c) : D.Runs L (.check c) :=
  fun _ hengine => gives_bind (run_gives hup hengine h) fun _ _ => gives_pure trivial

theorem runs_search (hup : D.Upheld L) {c : Check} (h : D.OfCheck c)
    {each : Engine → Check → Checking (List Event)}
    (heach : ∀ engine, D.Serves L engine → ∀ k, D.OfCheck k → L.Gives (fun _ => True) (each engine k)) :
    D.Runs L (.search c each) := by
  intro engine hengine
  show L.Gives _ (Search.run c (each engine) engine)
  unfold Search.run
  refine gives_bind (outcome_gives hup h.subject h.scope) fun o ho => ?_
  cases o with
  | error t => exact gives_pure trivial
  | ok collection =>
    have hsearched : L.Gives D.OfSearched (Run.ofExcept (Searched.ofValue collection) : Checking Searched) :=
      L.ofExcept (fun _ hs => searched_keeps ho hs) fun _ _ => trivial
    refine gives_bind hsearched fun searched hs => ?_
    cases searched with
    | elements items => exact gives_bind (eventsOf_gives h (heach engine hengine) hs) fun es _ => gives_pure trivial
    | entries under => exact gives_bind (runEntries_gives hup hengine h hs) fun e _ => gives_pure trivial

/-! ## Going through collections -/

theorem bindAll_holds (hup : D.Upheld L) {bindings : List (Binding × Form)}
    (hf : ∀ p ∈ bindings, D.forms p.2) (site : Site) (i : Nat) {scope : Scope} (hs : D.scopes scope) :
    L.Holds D.scopes D.Throws fun _ => Traversal.bindAll site i bindings scope := by
  induction bindings generalizing i scope with
  | nil => exact L.pure hs
  | cons p rest ih =>
    obtain ⟨b, form⟩ := p
    obtain ⟨hform, hrest⟩ := List.forall_mem_cons.1 hf
    unfold Traversal.bindAll
    refine L.bind (hup.evalAt hform _ hs) fun v hv => L.bind (bind_keeps b hv hs).holds fun inner hi => ?_
    exact ih hrest (i + 1) hi

/-- Iterations in scopes that there may be. -/
def OfIterations (D : Discipline) (is : List Iteration) : Prop := ∀ i ∈ is, D.scopes i.scope

theorem forEach_holds {go : Value → Eval (List Iteration)}
    (hgo : ∀ v, D.values v → L.Holds D.OfIterations D.Throws fun _ => go v) {vs : List Value} (h : D.All vs) :
    L.Holds D.OfIterations D.Throws fun _ => Traversal.forEach go vs := by
  rw [Traversal.forEach_eq_collect]
  exact Run.Logic.collect_holds fun v hv => hgo v (h v hv)

theorem sourceElements_keeps {v : Value} (h : D.values v) : D.Keeps D.All (Traversal.sourceElements v) := by
  unfold Traversal.sourceElements
  cases he : v.elements? with
  | none => exact throws_plain _ _
  | some items => exact all_elements? h he

theorem walk_holds (hup : D.Upheld L) {clauses : List Clause} (hc : ∀ c ∈ clauses, c.Within D.forms)
    (site : Site) {scope : Scope} (hs : D.scopes scope) (bound : List String) :
    L.Holds D.OfIterations D.Throws fun _ => Traversal.walk clauses site scope bound := by
  induction clauses generalizing site scope bound with
  | nil => exact L.pure (List.forall_mem_singleton.2 hs)
  | cons c rest ih =>
    obtain ⟨hhead, hrest⟩ := List.forall_mem_cons.1 hc
    cases c with
    | each pattern binding source =>
      unfold Traversal.walk
      refine L.bind (hup.evalAt hhead _ hs) fun collection hcoll => ?_
      refine L.bind (sourceElements_keeps hcoll).holds fun elements he => forEach_holds (fun v hv => ?_) he
      exact L.bind (bind_keeps binding hv hs).holds fun inner hi => ih hrest _ hi _
    | test form =>
      unfold Traversal.walk
      refine L.bind (hup.evalAt hhead _ hs) fun answer _ => L.ite (fun _ => ih hrest _ hs _) fun _ => ?_
      exact L.pure nofun
    | bind bindings =>
      unfold Traversal.walk
      exact L.bind (bindAll_holds hup hhead _ 0 hs) fun inner hi => ih hrest _ hi _

/-! ## Expanding -/

theorem stepValue_gives (hup : D.Upheld L) {c : Check} (hs : D.scopes c.scope) (i : Nat) (thread : Thread)
    {step : Form} (hf : D.forms step) {v : Value} (hv : D.values v) :
    L.Gives D.values (Plan.stepValue c i thread step v) := by
  unfold Plan.stepValue
  refine gives_bind (attempt_gives (hup.evalAt (D.thread hf hv _) _ hs)) fun r hr => ?_
  cases r with
  | error t => exact gives_pure hr
  | ok v => exact gives_pure hr

/-- Items that run within the logic. -/
def OfItems (D : Discipline) (L : Run.Logic Unit) (items : List Item) : Prop := ∀ i ∈ items, D.Runs L i

theorem ofItems_broken (D : Discipline) (L : Run.Logic Unit) (e : Event) : D.OfItems L [.broken e] :=
  List.forall_mem_singleton.2 fun _ _ => gives_pure trivial

mutual

/-- Expanding a plan keeps to the discipline, and so does running its items. -/
theorem expand_gives (hup : D.Upheld L) : (plan : Plan) → plan.Within D.forms → ∀ {c : Check}, D.OfCheck c →
    L.Gives (D.OfItems L) (plan.expand c)
  | .primitive, _, c, h => by
    simp only [Plan.expand]
    exact gives_pure (List.forall_mem_singleton.2 (runs_check hup h))
  | .malformed d, _, c, h => by
    simp only [Plan.expand]
    exact gives_raise d
  | .conjunction parts, hp, c, h => by
    simp only [Plan.expand]
    exact gives_bind (outcome_gives hup h.subject h.scope) fun o ho => expandParts_gives hup parts hp 0 h.scope ho
  | .pipeline thread steps, hp, c, h => by
    simp only [Plan.expand]
    refine gives_bind (outcome_gives hup h.subject h.scope) fun o ho => ?_
    cases o with
    | error t => exact gives_pure (ofItems_broken D L _)
    | ok value => exact expandSteps_gives hup steps hp 0 h.scope thread ho
  | .destructure binding pairs, hp, c, h => by
    simp only [Plan.expand]
    refine gives_bind (outcome_gives hup h.subject h.scope) fun o ho => ?_
    have hbound : D.Keeps D.scopes (o >>= fun value => binding.bind value c.scope) :=
      ho.bind fun v hv => bind_keeps binding hv h.scope
    cases hb : o >>= fun value => binding.bind value c.scope with
    | error t => exact gives_pure (ofItems_broken D L _)
    | ok scope =>
      rw [hb] at hbound
      exact expandPairs_gives hup pairs hp 0 hbound
  | .perElement clauses body next, ⟨hc, hb, hn⟩, c, h => by
    simp only [Plan.expand]
    refine gives_bind (attempt_gives (walk_holds hup hc c.site h.scope [])) fun r hr => ?_
    cases r with
    | error t => exact gives_pure (ofItems_broken D L _)
    | ok is => exact Plan.expandIterations_gives fun i hi => expand_gives hup next hn ⟨h.expected, hb, hr i hi⟩
  | .contains collection next, ⟨hcoll, hn⟩, c, h => by
    simp only [Plan.expand]
    have hsub : D.OfCheck { c with subject := .form collection } := ⟨h.expected, hcoll, h.scope⟩
    refine gives_pure (List.forall_mem_singleton.2 (runs_search hup hsub fun engine hengine k hk => ?_))
    exact gives_bind (expand_gives hup next hn hk) fun items hi => runAll_gives hi hengine

theorem expandParts_gives (hup : D.Upheld L) : (parts : List (Form × Plan)) →
    Plan.WithinParts D.forms parts → (i : Nat) →
    ∀ {c : Check}, D.scopes c.scope → ∀ {o : Outcome}, D.OfOutcome o →
    L.Gives (D.OfItems L) (Plan.expandParts parts i c o)
  | [], _, i, c, _, o, _ => by
    simp only [Plan.expandParts]
    exact gives_pure nofun
  | (expected, plan) :: rest, ⟨he, hp, hrest⟩, i, c, hs, o, ho => by
    simp only [Plan.expandParts]
    refine gives_bind (expand_gives hup plan hp ⟨he, ho, hs⟩) fun first hf => ?_
    refine gives_bind (expandParts_gives hup rest hrest (i + 1) hs ho) fun others hr => ?_
    exact gives_pure (List.forall_mem_append.2 ⟨hf, hr⟩)

theorem expandSteps_gives (hup : D.Upheld L) : (steps : List (Form × Form × Plan)) →
    Plan.WithinPairs D.forms steps → (i : Nat) →
    ∀ {c : Check}, D.scopes c.scope → ∀ (thread : Thread) {v : Value}, D.values v →
    L.Gives (D.OfItems L) (Plan.expandSteps steps i c thread v)
  | [], _, i, c, _, thread, v, _ => by
    simp only [Plan.expandSteps]
    exact gives_pure nofun
  | (expected, step, plan) :: rest, ⟨he, hf, hp, hrest⟩, i, c, hs, thread, v, hv => by
    simp only [Plan.expandSteps]
    refine gives_bind (stepValue_gives hup hs i thread hf hv) fun made hm => ?_
    refine gives_bind (expand_gives hup plan hp ⟨he, hm, hs⟩) fun first hf => ?_
    refine gives_bind (expandSteps_gives hup rest hrest (i + 1) hs thread hv) fun others hr => ?_
    exact gives_pure (List.forall_mem_append.2 ⟨hf, hr⟩)

theorem expandPairs_gives (hup : D.Upheld L) : (pairs : List (Form × Form × Plan)) →
    Plan.WithinPairs D.forms pairs → (i : Nat) →
    ∀ {c : Check}, D.scopes c.scope → L.Gives (D.OfItems L) (Plan.expandPairs pairs i c)
  | [], _, i, c, _ => by
    simp only [Plan.expandPairs]
    exact gives_pure nofun
  | (expected, actual, plan) :: rest, ⟨he, ha, hp, hrest⟩, i, c, hs => by
    simp only [Plan.expandPairs]
    refine gives_bind (expand_gives hup plan hp ⟨he, ha, hs⟩) fun first hf => ?_
    refine gives_bind (expandPairs_gives hup rest hrest (i + 1) hs) fun others hr => ?_
    exact gives_pure (List.forall_mem_append.2 ⟨hf, hr⟩)

end

/-- A grouping computes its subject first, and once; the rest is about the outcome. -/
theorem exists_rest_of_grouping (hup : D.Upheld L) (hparts : Form.Inherited D.forms) {form : Form}
    (hf : D.forms form) {g : Grouping} (hg : Grouping.parse form = .ok g) (hne : g ≠ .primitive) {c : Check}
    (hs : D.scopes c.scope) :
    ∃ rest : Outcome → Checking (List Item), (Plan.ofExpected form).expand c = c.outcome >>= rest ∧
      ∀ o, D.OfOutcome o → L.Gives (D.OfItems L) (rest o) := by
  have hwithin := Plan.ofExpected_within hparts hf
  rw [Plan.ofExpected_eq, hg] at hwithin ⊢
  cases g with
  | primitive => exact absurd rfl hne
  | conjunction expecteds =>
    simp only [Plan.expand]
    exact ⟨_, rfl, fun o ho => expandParts_gives hup _ hwithin 0 hs ho⟩
  | pipeline thread pairs =>
    simp only [Plan.expand]
    refine ⟨_, rfl, fun o ho => ?_⟩
    cases o with
    | error t => exact gives_pure (ofItems_broken D L _)
    | ok value => exact expandSteps_gives hup _ hwithin 0 hs thread ho
  | destructure binding pairs =>
    simp only [Plan.expand]
    refine ⟨_, rfl, fun o ho => ?_⟩
    have hbound : D.Keeps D.scopes (o >>= fun value => binding.bind value c.scope) :=
      ho.bind fun v hv => bind_keeps binding hv hs
    cases hb : o >>= fun value => binding.bind value c.scope with
    | error t => exact gives_pure (ofItems_broken D L _)
    | ok scope =>
      rw [hb] at hbound
      exact expandPairs_gives hup _ hwithin 0 hbound

end Discipline

end Attest
