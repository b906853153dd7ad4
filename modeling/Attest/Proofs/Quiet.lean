import Attest.Proofs.Checking
import Attest.Proofs.Preservation
/-!
# Checks without effects

Expanding a plan evaluates forms and nothing else, so it is quiet without probes
(`Invariant.expand_kept`). Running what it is expanded to also asks the schemas of the engine;
it is quiet if they are (`Invariant.runAll_running`).
-/

namespace Attest

/-- A validator that is asked about values of an invariant without effect, and answers the same
whenever it is asked. -/
structure Validator.Quiet (I : Invariant) (validator : Validator) : Prop where
  validate : ∀ site name v, I.OfValue v → ∃ r, ∀ s, validator.validate site name v s = (r, s)
  explain : ∀ site name v, I.OfValue v → ∃ r, ∀ s, validator.explain site name v s = (r, s)

/-- An engine whose schemas, if it has any, are asked without effect. -/
def Engine.Quiet (I : Invariant) (engine : Engine) : Prop :=
  ∀ validator, engine.schemas = some validator → validator.Quiet I

theorem Engine.quiet_of_noSchemas (I : Invariant) (r : Option Renderer) : Engine.Quiet I ⟨r, none⟩ := by
  intro validator h
  cases h

/-! ## One after the other -/

/-- What the items of every iteration have, all of them have. -/
theorem Plan.expandIterations_ends {quiet : Prop} {P : Item → Prop}
    {expand : Iteration → Checking (List Item)} {is : List Iteration}
    (h : ∀ i ∈ is, Run.Ends quiet (fun items => ∀ x ∈ items, P x) (fun _ => True) (expand i)) :
    Run.Ends quiet (fun items => ∀ x ∈ items, P x) (fun _ => True) (Plan.expandIterations expand is) :=
  expandIterations_gives (L := .ends quiet) h

/-- What the events of every item have, all of them have. -/
theorem Item.runAll_ends {quiet : Prop} {P : Event → Prop} {engine : Engine} {items : List Item}
    (h : ∀ i ∈ items, Run.Ends quiet (fun es => ∀ e ∈ es, P e) (fun _ => True) (i.run engine)) :
    Run.Ends quiet (fun es => ∀ e ∈ es, P e) (fun _ => True) (Item.runAll engine items) :=
  runAll_gives (L := .ends quiet) h

namespace Invariant

variable {I : Invariant} {ε α : Type} {P : α → Prop}

/-- It holds of a value or of the error that was thrown. -/
def OfOutcome (I : Invariant) : Outcome → Prop := I.Keeps I.OfValue

/-- It holds of what a check is about. -/
def OfSubject (I : Invariant) : Subject → Prop
  | .form form => I.OfForm form
  | .outcome o => I.OfOutcome o

/-- It holds of the forms and the scope of a check. -/
structure OfCheck (I : Invariant) (c : Check) : Prop where
  expected : I.OfForm c.expected
  subject : I.OfSubject c.subject
  scope : I.OfScope c.scope

/-- A computation that ends as `P` says, and is quiet without probes. -/
def Ending (I : Invariant) (P : α → Prop) (x : Run ε α) : Prop := Run.Ends (¬I.probes) P (fun _ => True) x

/-- A computation that is quiet without probes and with a quiet engine. -/
def Running (I : Invariant) (engine : Engine) (x : Run ε α) : Prop :=
  Run.Ends (¬I.probes ∧ engine.Quiet I) (fun _ => True) (fun _ => True) x

theorem Ending.running {x : Run ε α} (h : I.Ending P x) (engine : Engine) :
    Run.Ends (¬I.probes ∧ engine.Quiet I) P (fun _ => True) x := h.weaken And.left

/-! ## Running items -/

/-- An item that is quiet to run. -/
def OfItem (I : Invariant) (item : Item) : Prop := ∀ engine, I.Running engine (item.run engine)

theorem runAll_running {items : List Item} (h : ∀ i ∈ items, I.OfItem i) (engine : Engine) :
    I.Running engine (Item.runAll engine items) := by
  refine (Item.runAll_ends (P := fun _ => True) fun i hi => ?_).mono (fun _ _ => trivial) fun _ _ => trivial
  exact (h i hi engine).mono (fun _ _ _ _ => trivial) fun _ _ => trivial

/-- A quiet engine asks its schemas quietly. -/
theorem serves_of_quiet {engine : Engine} (hq : engine.Quiet I) :
    I.discipline.Serves (.ends (¬I.probes)) engine := by
  intro validator hv site name v h
  constructor
  · exact ⟨fun _ _ _ _ => trivial, fun _ _ _ _ => trivial, fun _ => (hq validator hv).validate site name v h⟩
  · exact ⟨fun _ _ _ _ => trivial, fun _ _ _ _ => trivial, fun _ => (hq validator hv).explain site name v h⟩

theorem item_of_runs {item : Item} (h : I.discipline.Runs (.ends (¬I.probes)) item) : I.OfItem item := by
  intro engine
  refine ⟨fun _ _ _ _ => trivial, fun _ _ _ _ => trivial, fun hquiet => ?_⟩
  exact (h engine (serves_of_quiet hquiet.2)).steady hquiet.1

/-- What a map has under the keys of another one is a map of which the invariant holds. -/
theorem ofValue_projection {keys entries : List (Value × Value)} (hk : I.OfValue (.map keys))
    (he : I.OfValue (.map entries)) : I.OfValue (.map (Search.projection keys entries)) :=
  Discipline.values_projection (D := I.discipline) hk he

/-! ## Expanding -/

/-- Items that are quiet to run. -/
def OfItemList (I : Invariant) (items : List Item) : Prop := ∀ i ∈ items, I.OfItem i

theorem ofCheck_discipline {c : Check} (h : I.OfCheck c) : I.discipline.OfCheck c := by
  obtain ⟨he, hsubject, hs⟩ := h
  refine ⟨he, ?_, hs⟩
  revert hsubject
  cases c.subject with
  | form form => exact id
  | outcome o =>
    cases o with
    | error t => exact id
    | ok v => exact id

/-- Evaluation keeps to an invariant, and is quiet without probes. -/
theorem upheld : I.discipline.Upheld (.ends (¬I.probes)) :=
  Discipline.upheld_of_probes I.discipline_covers (fun _ limit => .stop limit)
    (fun _ _ _ hprobe ha => probe_kept hprobe ha) ()

/-- Expanding a plan is quiet without probes, and so is running its items. -/
theorem expand_kept (plan : Plan) (hp : plan.Within I.OfForm) {c : Check} (h : I.OfCheck c) :
    I.Ending I.OfItemList (plan.expand c) := by
  have hexpand := Discipline.expand_gives upheld plan hp (ofCheck_discipline h)
  exact Run.Ends.mono hexpand (fun items hi i hmem => item_of_runs (hi i hmem)) fun _ he => he

/-- The literals of a part of a form are literals of the form. -/
theorem inherited : Form.Inherited I.OfForm where
  args form hform f hf := by
    cases form with
    | list items =>
      cases items with
      | nil => cases hf
      | cons head rest => exact ofForms_iff.1 hform f (List.mem_cons_of_mem _ hf)
    | _ => cases hf
  vector items hitems f hf := ofForms_iff.1 hitems f hf
  body forms hforms := by
    unfold Traversal.bodyForm
    split
    · exact hforms _ List.mem_cons_self
    · exact ⟨trivial, ofForms_iff.2 hforms⟩

/-! ## Without probes -/

/-- There are no probes, and anything else may be. -/
def silent : Invariant where
  elements _ := True
  entries _ := True
  probes := False
  noElements := trivial
  insert _ _ := trivial
  noEntries := trivial
  put _ _ _ := trivial
  putNew _ _ _ := trivial
  select _ _ := trivial

/-- Expanding without probes gives the same items, or the same defect, whenever it is done. -/
theorem expand_steady {plan : Plan} (hp : plan.Within silent.OfForm) {c : Check} (h : silent.OfCheck c) :
    ∃ r, ∀ s, plan.expand c s = (r, s) := (expand_kept plan hp h).steady id

end Invariant

/-- A schema that calls no probe. -/
def Schema.Silent : Schema → Prop
  | test f _ => Invariant.silent.OfValue f
  | _ => True

theorem Schema.Silent.ofSchema {schema : Schema} (h : schema.Silent) :
    Invariant.silent.discipline.OfSchema schema := by
  cases schema with
  | test f reason => exact h
  | _ => trivial

/-- The schemas of a registry that call no probe make a quiet validator. -/
theorem Registry.quiet_validator {registry : Registry} (h : ∀ p ∈ registry, p.2.Silent) :
    registry.validator.Quiet .silent := by
  have hquiet : ∀ {α : Type} {x : Run Empty α}, Invariant.silent.Ending (fun _ => True) x →
      ∃ r, ∀ s, x s = (r, s) := fun hx => hx.steady id
  have hup : Invariant.silent.discipline.Upheld (.ends (¬Invariant.silent.probes)) := Invariant.upheld
  have hsilent : ∀ p ∈ registry, Invariant.silent.discipline.OfSchema p.2 := fun p hp => (h p hp).ofSchema
  constructor
  · exact fun site name v hv => hquiet (Discipline.accepts_gives hup hsilent site hv)
  · exact fun site name v hv => hquiet (Discipline.explanation_gives hup hsilent site hv)

end Attest
