import Attest.Proofs.Preservation
import Attest.Proofs.Variation
/-!
# Names that a form does not mention

A form that does not mention a name, and makes no function that would keep its scope, evaluates
alike whatever the name is bound to (`Form.evalAt_eq_of_omits`). So does everything that is
checked with such forms (`Variation.fresh`).
-/

namespace Attest

/-! ## The forms in a form -/

mutual

/-- A form and all forms in it. -/
def Form.subforms : Form → List Form
  | .lit v => [.lit v]
  | .sym name => [.sym name]
  | .list items => .list items :: subformsOf items
  | .vector items => .vector items :: subformsOf items
  | .map entries => .map entries :: subformsOfEntries entries

/-- The forms in several forms. -/
def subformsOf : List Form → List Form
  | [] => []
  | f :: fs => f.subforms ++ subformsOf fs

/-- The forms in entries. -/
def subformsOfEntries : List (Form × Form) → List Form
  | [] => []
  | (k, v) :: rest => k.subforms ++ v.subforms ++ subformsOfEntries rest

end

mutual

/-- A form that does not mention a name and makes no function. Heading a list with `do` counts
as no mention, since a body of several forms is headed so, and `fn` makes a function only with a
vector of parameters. -/
def Form.Omits (x : String) : Form → Prop
  | .lit _ => True
  | .sym name => name ≠ x
  | .list [] => True
  | .list (head :: args) =>
    (head = .sym "do" ∨ head.Omits x) ∧ (head = .sym "fn" → ∀ params rest, args ≠ .vector params :: rest) ∧
      omitsAll x args
  | .vector items => omitsAll x items
  | .map entries => omitsEntries x entries

/-- Several forms that do not mention a name. -/
def omitsAll (x : String) : List Form → Prop
  | [] => True
  | f :: fs => f.Omits x ∧ omitsAll x fs

/-- Entries that do not mention a name. -/
def omitsEntries (x : String) : List (Form × Form) → Prop
  | [] => True
  | (k, v) :: rest => k.Omits x ∧ v.Omits x ∧ omitsEntries x rest

end

variable {x : String}

theorem omitsAll_iff {forms : List Form} : omitsAll x forms ↔ ∀ f ∈ forms, f.Omits x := by
  induction forms with
  | nil => simp [omitsAll]
  | cons f fs ih => simp [omitsAll, ih]

/-- A form that is neither a name nor the making of a function. -/
def Form.Foreign (x : String) (f : Form) : Prop := f ≠ .sym x ∧ f.head? ≠ some "fn"

mutual

/-- A name that does not occur in a form without functions is not mentioned. -/
theorem Form.omits_of_subforms : (form : Form) → (∀ f ∈ form.subforms, f.Foreign x) → form.Omits x
  | .lit v, _ => by simp [Form.Omits]
  | .sym name, h => by
    have hne := (h (.sym name) (by simp [Form.subforms])).1
    simpa [Form.Omits] using hne
  | .list [], _ => by simp [Form.Omits]
  | .list (head :: args), h => by
    have hhead := (h (.list (head :: args)) (by simp [Form.subforms])).2
    have hsub : ∀ f ∈ head.subforms ++ subformsOf args, f.Foreign x :=
      fun f hf => h f (by simp only [Form.subforms, subformsOf]; exact List.mem_cons_of_mem _ hf)
    simp only [Form.Omits]
    refine ⟨.inr (Form.omits_of_subforms head fun f hf => hsub f (by simp [hf])), ?_, ?_⟩
    · rintro rfl
      simp [Form.head?] at hhead
    · exact omitsAll_of_subforms args fun f hf => hsub f (by simp [hf])
  | .vector items, h => by
    simp only [Form.Omits]
    exact omitsAll_of_subforms items fun f hf => h f (by simp [Form.subforms, hf])
  | .map entries, h => by
    simp only [Form.Omits]
    exact omitsEntries_of_subforms entries fun f hf => h f (by simp [Form.subforms, hf])

theorem omitsAll_of_subforms : (forms : List Form) → (∀ f ∈ subformsOf forms, f.Foreign x) → omitsAll x forms
  | [], _ => by simp [omitsAll]
  | f :: fs, h => by
    simp only [omitsAll]
    refine ⟨Form.omits_of_subforms f fun g hg => h g (by simp [subformsOf, hg]), ?_⟩
    exact omitsAll_of_subforms fs fun g hg => h g (by simp [subformsOf, hg])

theorem omitsEntries_of_subforms : (entries : List (Form × Form)) →
    (∀ f ∈ subformsOfEntries entries, f.Foreign x) → omitsEntries x entries
  | [], _ => by simp [omitsEntries]
  | (k, v) :: rest, h => by
    simp only [omitsEntries]
    refine ⟨Form.omits_of_subforms k fun g hg => h g (by simp [subformsOfEntries, hg]), ?_, ?_⟩
    · exact Form.omits_of_subforms v fun g hg => h g (by simp [subformsOfEntries, hg])
    · exact omitsEntries_of_subforms rest fun g hg => h g (by simp [subformsOfEntries, hg])

end

/-- What a form does not mention, its parts do not. -/
theorem omits_inherited : Form.Inherited (Form.Omits x) where
  args form hform f hf := by
    cases form with
    | list items =>
      cases items with
      | nil => cases hf
      | cons head args =>
        simp only [Form.Omits] at hform
        exact omitsAll_iff.1 hform.2.2 f hf
    | _ => cases hf
  vector items hitems f hf := by
    simp only [Form.Omits] at hitems
    exact omitsAll_iff.1 hitems f hf
  body forms hforms := by
    unfold Traversal.bodyForm
    split
    · exact hforms _ List.mem_cons_self
    · simp only [Form.Omits]
      exact ⟨by simp, by simp, omitsAll_iff.2 hforms⟩

theorem omits_threadStep {step : Form} (h : step.Omits x) (v : Value) (last : Bool) :
    (threadStep step v last).Omits x := by
  unfold threadStep
  split
  · rename_i head args
    simp only [Form.Omits] at h
    obtain ⟨hhead, hfn, hargs⟩ := h
    cases last
    · simp only [Bool.false_eq_true, if_false, Form.Omits, omitsAll]
      exact ⟨hhead, by simp, trivial, hargs⟩
    · simp only [if_true, List.cons_append, Form.Omits]
      refine ⟨hhead, ?_, omitsAll_iff.2 fun f hf => ?_⟩
      · intro heq params rest
        cases args with
        | nil => simp
        | cons a as =>
          have hne := hfn heq params as
          intro happ
          simp only [List.cons_append, List.cons.injEq] at happ
          exact hne (by rw [happ.1])
      · rcases List.mem_append.1 hf with hf | hf
        · exact omitsAll_iff.1 hargs f hf
        · rw [List.mem_singleton.1 hf]
          simp [Form.Omits]
  · simp only [Form.Omits, omitsAll]
    exact ⟨.inr h, by simp, trivial, trivial⟩

/-! ## Evaluation in scopes that agree -/

/-- Two scopes that bind every name but one to the same value. -/
def Scope.AgreeExcept (x : String) (s s' : Scope) : Prop := ∀ name, name ≠ x → s.lookup name = s'.lookup name

namespace Scope.AgreeExcept

variable {s s' : Scope}

theorem bind (x : String) (v : Value) (s : Scope) : AgreeExcept x s (s.bind x v) := by
  intro name hne
  rw [lookup_bind_of_ne s v hne]

theorem append (h : AgreeExcept x s s') (ext : Scope) : AgreeExcept x (ext ++ s) (ext ++ s') := by
  intro name hne
  have hs := h name hne
  unfold lookup at hs ⊢
  rw [List.find?_append, List.find?_append]
  cases ext.find? (·.1 == name) with
  | none => simpa using hs
  | some b => rfl

end Scope.AgreeExcept

/-- An evaluator that evaluates forms that do not mention a name alike in scopes that agree. -/
def Evaluator.Ignores (x : String) (ev : Evaluator) : Prop :=
  ∀ site {s s'}, Scope.AgreeExcept x s s' → ∀ form, form.Omits x → ev site s form = ev site s' form

namespace Evaluator.Ignores

variable {ev : Evaluator} {s s' : Scope}

theorem evalItems_eq (hev : ev.Ignores x) (hs : s.AgreeExcept x s') (site : Site) (i : Nat) {forms : List Form}
    (hf : omitsAll x forms) : evalItems ev site s i forms = evalItems ev site s' i forms := by
  induction forms generalizing i with
  | nil => rfl
  | cons f fs ih =>
    unfold evalItems
    rw [hev _ hs f hf.1, ih (i + 1) hf.2]

theorem evalEntries_eq (hev : ev.Ignores x) (hs : s.AgreeExcept x s') (site : Site) (i : Nat)
    (done : List (Value × Value)) {entries : List (Form × Form)} (hf : omitsEntries x entries) :
    evalEntries ev site s i done entries = evalEntries ev site s' i done entries := by
  induction entries generalizing i done with
  | nil => rfl
  | cons e rest ih =>
    obtain ⟨k, v⟩ := e
    unfold evalEntries
    rw [hev _ hs k hf.1, hev _ hs v hf.2.1]
    congr 1
    funext key
    congr 1
    funext value
    exact ih (i + 2) _ hf.2.2

theorem evalBody_eq (hev : ev.Ignores x) (hs : s.AgreeExcept x s') (site : Site) (i : Nat) {forms : List Form}
    (hf : omitsAll x forms) : evalBody ev site s i forms = evalBody ev site s' i forms := by
  unfold evalBody
  rw [hev.evalItems_eq hs site i hf]

theorem evalIf_eq (hev : ev.Ignores x) (hs : s.AgreeExcept x s') (site : Site) {args : List Form}
    (hf : omitsAll x args) : evalIf ev site s args = evalIf ev site s' args := by
  have hmem := omitsAll_iff.1 hf
  unfold evalIf
  split
  · rename_i test yes
    simp only [hev _ hs test (hmem _ (by simp)), hev _ hs yes (hmem _ (by simp))]
  · rename_i test yes no
    simp only [hev _ hs test (hmem _ (by simp)), hev _ hs yes (hmem _ (by simp)),
      hev _ hs no (hmem _ (by simp))]
  · rfl

/-- Bindings made one after the other put the same names in front of both scopes. -/
theorem evalBindings_rel (hev : ev.Ignores x) (hs : s.AgreeExcept x s') (site : Site) (i : Nat)
    {pairs : List (Form × Form)} (hf : ∀ p ∈ pairs, p.2.Omits x) :
    Run.Rel (Scope.AgreeExcept x) (evalBindings ev site i pairs s) (evalBindings ev site i pairs s') := by
  induction pairs generalizing i s s' with
  | nil => exact .pure hs
  | cons p rest ih =>
    obtain ⟨target, value⟩ := p
    unfold evalBindings
    cases Binding.parse target with
    | error e => exact .raise _ _
    | ok b =>
      refine Run.Rel.bind_same (hev _ hs value (hf _ List.mem_cons_self)) fun v => ?_
      refine (b.bind_rel v fun ext => hs.append ext).bind fun inner inner' hi => ?_
      exact ih hi (i + 1) fun p hp => hf p (List.mem_cons_of_mem _ hp)

theorem evalLet_eq (hev : ev.Ignores x) (hs : s.AgreeExcept x s') (site : Site) {args : List Form}
    (hf : omitsAll x args) : evalLet ev site s args = evalLet ev site s' args := by
  unfold evalLet
  split
  · rename_i bindings forms
    have hvector : omitsAll x bindings := by simpa [Form.Omits] using hf.1
    cases hp : pairUp? bindings with
    | none => rfl
    | some pairs =>
      have hpairs : ∀ p ∈ pairs, p.2.Omits x := fun p hmem =>
        omitsAll_iff.1 hvector _ (mem_of_pairUp? hp hmem).2
      refine Run.Rel.eq ((hev.evalBindings_rel hs _ 1 hpairs).bind fun inner inner' hi => ?_)
      exact .of_eq (hev.evalBody_eq hi _ 0 hf.2)
  · rfl

theorem evalSteps_eq (hev : ev.Ignores x) (hs : s.AgreeExcept x s') (t : Threading) (acc : Value)
    {steps : List (Form × Site)} (hf : ∀ p ∈ steps, p.1.Omits x) :
    evalSteps ev s t acc steps = evalSteps ev s' t acc steps := by
  induction steps generalizing acc with
  | nil => rfl
  | cons p rest ih =>
    obtain ⟨step, site⟩ := p
    unfold evalSteps
    have hstep := omits_threadStep (hf _ List.mem_cons_self) acc t.last
    rw [hev site hs _ hstep]
    simp only [ih _ fun p hp => hf p (List.mem_cons_of_mem _ hp)]

theorem evalThread_eq (hev : ev.Ignores x) (hs : s.AgreeExcept x s') (site : Site) (op : String)
    {args : List Form} (hf : omitsAll x args) : evalThread ev site s op args = evalThread ev site s' op args := by
  unfold evalThread
  split
  · rfl
  · rename_i first steps
    have hsteps : ∀ last, ∀ p ∈ (stepSites site last steps).2, p.1.Omits x := fun last p hp =>
      omitsAll_iff.1 hf.2 _ (Discipline.mem_of_mem_stepSites hp)
    simp only [hev _ hs first hf.1, hev.evalSteps_eq hs _ _ (hsteps _)]

theorem evalCall_eq (hev : ev.Ignores x) (hs : s.AgreeExcept x s') (call : Builtin.Caller) (site : Site)
    {head : Form} (hh : head.Omits x) {args : List Form} (hf : omitsAll x args) :
    evalCall ev call site s head args = evalCall ev call site s' head args := by
  unfold evalCall
  rw [hev _ hs head hh, hev.evalItems_eq hs _ 1 hf]

/-- A form makes a function only with a vector of parameters; otherwise no scope matters. -/
theorem evalFn_eq (site : Site) {args : List Form} (hf : ∀ params rest, args ≠ .vector params :: rest) :
    evalFn site s args = evalFn site s' args := by
  unfold evalFn
  split
  · rfl
  · rename_i params forms
    exact absurd rfl (hf params forms)
  · rfl

theorem step_eq (hev : ev.Ignores x) (hs : s.AgreeExcept x s') (call : Builtin.Caller) (site : Site)
    {form : Form} (hf : form.Omits x) : form.step ev call site s = form.step ev call site s' := by
  unfold Form.step
  split
  · rfl
  · rename_i name
    rw [hs name (by simpa [Form.Omits] using hf)]
  · rw [hev.evalItems_eq hs site 0 (by simpa [Form.Omits] using hf)]
  · rw [hev.evalEntries_eq hs site 0 [] (by simpa [Form.Omits] using hf)]
  · rfl
  · rename_i head args
    simp only [Form.Omits] at hf
    obtain ⟨hhead, hfn, hargs⟩ := hf
    unfold evalList
    split
    · exact hev.evalBody_eq hs _ 1 hargs
    · exact hev.evalIf_eq hs _ hargs
    · exact hev.evalLet_eq hs _ hargs
    · exact evalFn_eq site (hfn rfl)
    · rename_i name hdo _ _ _
      have hname : (Form.sym name).Omits x := hhead.resolve_left fun h => hdo (Form.sym.inj h)
      rw [hs name (by simpa [Form.Omits] using hname), hev.evalThread_eq hs site name hargs,
        hev.evalCall_eq hs call site hname hargs]
    · rename_i hsym
      have hname : head.Omits x := hhead.resolve_left fun h => hsym _ h
      exact hev.evalCall_eq hs call site hname hargs

end Evaluator.Ignores

/-- To any depth, evaluation ignores a name that a form does not mention. -/
theorem eval_ignores (depth : Nat) : Evaluator.Ignores x (eval depth) := by
  induction depth with
  | zero =>
    intro site s s' _ form _
    rfl
  | succ depth ih =>
    intro site s s' hs form hf
    exact ih.step_eq hs (apply depth) site hf

/-- A form that does not mention a name evaluates alike whatever the name is bound to. -/
theorem Form.evalAt_eq_of_omits {form : Form} (hf : form.Omits x) {s s' : Scope} (hs : s.AgreeExcept x s')
    (site : Site) : form.evalAt site s = form.evalAt site s' := eval_ignores nestingLimit site hs form hf

/-- Two runs with one engine over forms that do not mention a name, in scopes that may differ in
it. Texts agree; messages may differ as far as a relation allows. -/
def Variation.fresh (engine : Engine) (x : String) (messages : Option String → Option String → Prop)
    (hcontext : ∀ {m m'}, messages m m' → ∀ line, messages (withContext m line) (withContext m' line))
    (hreason : ∀ text, messages (some text) (some text)) : Variation where
  left := engine
  right := engine
  forms := Form.Omits x
  scopes := Scope.AgreeExcept x
  texts := True
  messages := messages
  parts := omits_inherited
  literal v := by simp [Form.Omits]
  step h v last := omits_threadStep h v last
  eval hf hs site := Form.evalAt_eq_of_omits hf hs site
  extend hs ext := hs.append ext
  schemas := rfl
  renderer _ := rfl
  context h line := hcontext h line
  reason _ text := hreason text

end Attest
