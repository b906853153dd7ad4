import Attest.Plan
/-!
# The forms of a plan

`Plan.Within P` says that every form a plan makes computations or checks of has the property
`P`. A property that passes from forms to their parts (`Form.Inherited`) holds within the plan
of an assertion as soon as it holds of its two forms (`Plan.ofForms_within`).
-/

namespace Attest

/-- A property of forms that passes to their parts, and from the forms of a body to the body. -/
structure Form.Inherited (P : Form → Prop) : Prop where
  args : ∀ form, P form → ∀ f ∈ form.args, P f
  vector : ∀ items, P (.vector items) → ∀ f ∈ items, P f
  body : ∀ forms, (∀ f ∈ forms, P f) → P (Traversal.bodyForm forms)

/-- The forms that a clause computes have a property. -/
def Clause.Within (P : Form → Prop) : Clause → Prop
  | each _ _ source => P source
  | test form => P form
  | bind bindings => ∀ p ∈ bindings, P p.2

namespace Plan

mutual

/-- The forms that a plan checks or computes have a property. -/
def Within (P : Form → Prop) : Plan → Prop
  | primitive | malformed _ => True
  | conjunction parts => WithinParts P parts
  | pipeline _ steps => WithinPairs P steps
  | destructure _ pairs => WithinPairs P pairs
  | perElement clauses body next => (∀ c ∈ clauses, c.Within P) ∧ P body ∧ next.Within P
  | contains collection next => P collection ∧ next.Within P

/-- The forms of the parts of a conjunction have a property. -/
def WithinParts (P : Form → Prop) : List (Form × Plan) → Prop
  | [] => True
  | (expected, plan) :: rest => P expected ∧ plan.Within P ∧ WithinParts P rest

/-- The forms of pairs have a property. -/
def WithinPairs (P : Form → Prop) : List (Form × Form × Plan) → Prop
  | [] => True
  | (expected, other, plan) :: rest => P expected ∧ P other ∧ plan.Within P ∧ WithinPairs P rest

end

variable {P : Form → Prop}

theorem withinParts_map {f : Form → Plan} {forms : List Form}
    (h : ∀ e ∈ forms, P e ∧ (f e).Within P) : WithinParts P (forms.map fun e => (e, f e)) := by
  induction forms with
  | nil => trivial
  | cons e es ih =>
    obtain ⟨he, hp⟩ := h e List.mem_cons_self
    exact ⟨he, hp, ih fun e' he' => h e' (List.mem_cons_of_mem _ he')⟩

theorem withinPairs_map {f : Form × Form → Plan} {pairs : List (Form × Form)}
    (h : ∀ p ∈ pairs, P p.1 ∧ P p.2 ∧ (f p).Within P) :
    WithinPairs P (pairs.map fun p => (p.1, p.2, f p)) := by
  induction pairs with
  | nil => trivial
  | cons p ps ih =>
    obtain ⟨h1, h2, hp⟩ := h p List.mem_cons_self
    exact ⟨h1, h2, hp, ih fun q hq => h q (List.mem_cons_of_mem _ hq)⟩

end Plan

/-! ## The parts of what was parsed -/

theorem mem_of_pairUp? {α : Type} {xs : List α} {pairs : List (α × α)} (h : pairUp? xs = some pairs)
    {p : α × α} (hp : p ∈ pairs) : p.1 ∈ xs ∧ p.2 ∈ xs := by
  rw [← flatten_of_pairUp? h]
  constructor
  · exact List.mem_flatMap.2 ⟨p, hp, List.mem_cons_self⟩
  · exact List.mem_flatMap.2 ⟨p, hp, List.mem_cons_of_mem _ (List.mem_singleton_self _)⟩

/-- A sequence that succeeds went through a success of its first part. -/
theorem exists_of_bind_ok {ε α β : Type} {x : Except ε α} {f : α → Except ε β} {b : β}
    (h : (x >>= f) = .ok b) : ∃ a, x = .ok a ∧ f a = .ok b := by
  cases x with
  | error e => cases h
  | ok a => exact ⟨a, rfl, h⟩

/-- What a list of steps that may fail yields was yielded by one of them. -/
theorem exists_of_mem_mapM {ε α β : Type} {f : α → Except ε β} {xs : List α} {ys : List β}
    (h : xs.mapM f = .ok ys) {y : β} (hy : y ∈ ys) : ∃ x ∈ xs, f x = .ok y := by
  induction xs generalizing ys with
  | nil =>
    cases h
    cases hy
  | cons x xs ih =>
    rw [List.mapM_cons] at h
    obtain ⟨b, hx, h⟩ := exists_of_bind_ok h
    obtain ⟨bs, hxs, h⟩ := exists_of_bind_ok h
    cases h
    rcases List.mem_cons.1 hy with rfl | hy
    · exact ⟨x, List.mem_cons_self, hx⟩
    · obtain ⟨x', hx', hf⟩ := ih hxs hy
      exact ⟨x', List.mem_cons_of_mem _ hx', hf⟩

namespace Traversal

variable {P : Form → Prop}

theorem within_of_parseBindings {pairs : List (Form × Form)} {bs : List (Binding × Form)}
    (h : parseBindings pairs = .ok bs) (hP : ∀ p ∈ pairs, P p.2) : ∀ p ∈ bs, P p.2 := by
  intro p hp
  obtain ⟨⟨target, value⟩, hq, hf⟩ := exists_of_mem_mapM h hp
  obtain ⟨b, -, hb⟩ := exists_of_bind_ok hf
  cases hb
  exact hP _ hq

theorem within_of_parseClause (hP : Form.Inherited P) {form target value : Form} {c : Clause}
    (h : parseClause form target value = .ok c) (hv : P value) : c.Within P := by
  unfold parseClause at h
  split at h
  · cases h
    exact hv
  · split at h
    · rename_i items
      obtain ⟨pairs, hp, h⟩ := exists_of_bind_ok h
      obtain ⟨bs, hb, h⟩ := exists_of_bind_ok h
      cases h
      refine within_of_parseBindings hb fun p hp' => ?_
      exact hP.vector items hv _ (mem_of_pairUp? (Grouping.pairUp?_of_formPairs hp) hp').2
    · cases h
  · cases h
  · obtain ⟨b, -, h⟩ := exists_of_bind_ok h
    cases h
    exact hv

theorem within_of_parseClauses (hP : Form.Inherited P) {form : Form} {items : List Form}
    {cs : List Clause} (h : parseClauses form items = .ok cs) (hv : P (.vector items)) :
    ∀ c ∈ cs, c.Within P := by
  obtain ⟨pairs, hp, h⟩ := exists_of_bind_ok h
  obtain ⟨clauses, hm, h⟩ := exists_of_bind_ok h
  split at h
  · cases h
    intro c hc
    obtain ⟨p, hpp, hpc⟩ := exists_of_mem_mapM hm hc
    have hmem := mem_of_pairUp? (Grouping.pairUp?_of_formPairs hp) hpp
    exact within_of_parseClause hP hpc (hP.vector items hv _ hmem.2)
  · cases h

/-- The forms of a traversal are parts of the form that was parsed. -/
theorem within_of_parse? (hP : Form.Inherited P) {form : Form} {t : Traversal}
    (h : parse? form = some (.ok t)) (hf : P form) :
    (∃ clauses body, t = .perElement clauses body ∧ (∀ c ∈ clauses, c.Within P) ∧ P body) ∨
      ∃ collection, t = .contains collection ∧ P collection := by
  unfold parse? at h
  split at h
  · have h := Option.some.inj h
    unfold parseFromEach at h
    split at h
    · cases h
    · rename_i items body hargs
      split at h
      · cases h
      · obtain ⟨clauses, hc, h⟩ := exists_of_bind_ok h
        cases h
        have hall : ∀ f ∈ .vector items :: body, P f := hargs ▸ hP.args form hf
        refine .inl ⟨clauses, _, rfl, ?_, ?_⟩
        · exact within_of_parseClauses hP hc (hall _ List.mem_cons_self)
        · exact hP.body body fun f hf => hall f (List.mem_cons_of_mem _ hf)
    · cases h
  · have h := Option.some.inj h
    unfold parseIn at h
    split at h
    · rename_i collection hargs
      cases h
      exact .inr ⟨collection, rfl, hP.args form hf _ (hargs ▸ List.mem_singleton_self _)⟩
    · cases h
  · cases h

end Traversal

namespace Plan

variable {P : Form → Prop}

theorem around_within (hP : Form.Inherited P) {inner : Plan} (hi : inner.Within P) {actual : Form}
    (ha : P actual) : (around inner actual).Within P := by
  induction hn : actual.nodes using Nat.strongRecOn generalizing actual with
  | ind n ih =>
    rw [around_eq]
    cases hp : Traversal.parse? actual with
    | none => exact hi
    | some r =>
      cases r with
      | error d => trivial
      | ok t =>
        rcases Traversal.within_of_parse? hP hp ha with ⟨clauses, body, rfl, hc, hb⟩ | ⟨coll, rfl, hc⟩
        · have hlt := Traversal.nodes_lt_of_perElement hp
          exact ⟨hc, hb, ih body.nodes (hn ▸ hlt) hb rfl⟩
        · exact ⟨hc, hi⟩

theorem ofExpected_within (hP : Form.Inherited P) {form : Form} (hf : P form) :
    (ofExpected form).Within P := by
  induction hn : form.nodes using Nat.strongRecOn generalizing form with
  | ind n ih =>
    have hargs := hP.args form hf
    rw [ofExpected_eq]
    cases hg : Grouping.parse form with
    | error d => trivial
    | ok g =>
      rcases Grouping.parse_cases hg with
        rfl | rfl | ⟨thread, pairs, hu, rfl⟩ | ⟨pattern, rest, b, pairs, ha, hu, rfl⟩
      · trivial
      · refine withinParts_map fun e he => ⟨hargs e he, ?_⟩
        exact ih e.nodes (hn ▸ Grouping.nodes_lt_of_conjunction hg he) (hargs e he) rfl
      · refine withinPairs_map fun p hp => ?_
        obtain ⟨h1, h2⟩ := mem_of_pairUp? hu hp
        refine ⟨hargs _ h1, hargs _ h2, ?_⟩
        exact ih _ (hn ▸ Grouping.nodes_lt_of_pipeline hg hp) (hargs _ h1) rfl
      · refine withinPairs_map fun p hp => ?_
        obtain ⟨h1, h2⟩ := mem_of_pairUp? hu hp
        rw [ha] at hargs
        have h1 := hargs _ (List.mem_cons_of_mem _ h1)
        have h2 := hargs _ (List.mem_cons_of_mem _ h2)
        have hlt := Grouping.nodes_lt_of_destructure hg hp
        exact ⟨h1, h2, around_within hP (ih _ (by omega) h1 rfl) h2⟩

/-- What the two forms of an assertion have and pass to their parts holds within its plan. -/
theorem ofForms_within (hP : Form.Inherited P) {expected actual : Form} (he : P expected)
    (ha : P actual) : (ofForms expected actual).Within P :=
  around_within hP (ofExpected_within hP he) ha

end Plan

end Attest
