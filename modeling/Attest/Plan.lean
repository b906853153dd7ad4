import Attest.Shape
import Attest.Value.Nodes
/-!
# Plans

A plan is the shape of an assertion all the way down, read from its two forms before
anything is evaluated. The traversals that lead the actual form stand around the plan of
the expected form (`Plan.around`), and a grouping contains the plans of its parts
(`Plan.ofExpected`). Running an assertion is recursion on its plan; a part that is malformed
is a defect only once it is reached.
-/

namespace Attest

/-- How the parts of an assertion are checked. -/
inductive Plan where
  /-- One expectation, one check. -/
  | primitive
  | malformed (d : Defect)
  /-- Expected forms for one value. -/
  | conjunction (parts : List (Form × Plan))
  /-- Expected forms, each with the step that makes its value. -/
  | pipeline (thread : Thread) (steps : List (Form × Form × Plan))
  /-- Expected and actual forms among the parts of a value. -/
  | destructure (binding : Binding) (pairs : List (Form × Form × Plan))
  /-- The same expected form for the body in each iteration. -/
  | perElement (clauses : List Clause) (body : Form) (next : Plan)
  /-- The same expected form for each element. -/
  | contains (collection : Form) (next : Plan)

/-! ## The parts of a shape have fewer nodes than the form -/

namespace Grouping

/-- Forms that were paired are of an even number. -/
theorem pairUp?_of_formPairs {form : Form} {items : List Form} {pairs : List (Form × Form)}
    (h : formPairs form items = .ok pairs) : pairUp? items = some pairs := by
  unfold formPairs at h
  split at h
  · simp_all
  · cases h

theorem eq_conjunction_of_parseMore {form : Form} {g : Grouping}
    (h : parseMore form = .ok g) : g = .conjunction form.args := by
  unfold parseMore at h
  split at h
  · cases h
  · cases h; rfl

theorem eq_pipeline_of_parsePipeline {thread : Thread} {form : Form} {g : Grouping}
    (h : parsePipeline thread form = .ok g) :
    ∃ pairs, pairUp? form.args = some pairs ∧ g = .pipeline thread pairs := by
  unfold parsePipeline at h
  split at h
  · cases h
  · cases hp : formPairs form form.args with
    | error d => rw [hp] at h; cases h
    | ok pairs => rw [hp] at h; cases h; exact ⟨pairs, pairUp?_of_formPairs hp, rfl⟩

theorem eq_destructure_of_parseMoreOf {form : Form} {g : Grouping}
    (h : parseMoreOf form = .ok g) :
    ∃ pattern rest b pairs, form.args = pattern :: rest ∧ pairUp? rest = some pairs ∧
      g = .destructure b pairs := by
  unfold parseMoreOf at h
  split at h
  · cases h
  · rename_i pattern rest hargs
    cases hb : parseBinding pattern with
    | error d => rw [hb] at h; cases h
    | ok b =>
      cases hp : formPairs form rest with
      | error d => simp only [hb, hp] at h; cases h
      | ok pairs =>
        simp only [hb, hp] at h
        refine ⟨pattern, rest, b, pairs, hargs, pairUp?_of_formPairs hp, ?_⟩
        cases pairs with
        | nil => cases h
        | cons p ps => cases h; rfl

/-- What a form that was read as a grouping holds in which place. -/
theorem parse_cases {form : Form} {g : Grouping} (h : parse form = .ok g) :
    g = .primitive ∨ g = .conjunction form.args ∨
      (∃ thread pairs, pairUp? form.args = some pairs ∧ g = .pipeline thread pairs) ∨
      ∃ pattern rest b pairs, form.args = pattern :: rest ∧ pairUp? rest = some pairs ∧
        g = .destructure b pairs := by
  unfold parse at h
  split at h
  · exact .inr (.inl (eq_conjunction_of_parseMore h))
  · exact .inr (.inr (.inl ⟨_, eq_pipeline_of_parsePipeline h⟩))
  · exact .inr (.inr (.inl ⟨_, eq_pipeline_of_parsePipeline h⟩))
  · exact .inr (.inr (.inr (eq_destructure_of_parseMoreOf h)))
  · cases h; exact .inl rfl

theorem nodes_lt_of_conjunction {form e : Form} {es : List Form}
    (h : parse form = .ok (.conjunction es)) (he : e ∈ es) : e.nodes < form.nodes := by
  have hargs := nodesOf_args_lt form
  rcases parse_cases h with hg | hg | ⟨_, _, _, hg⟩ | ⟨_, _, _, _, _, _, hg⟩ <;> cases hg
  have := nodes_le_nodesOf he
  omega

theorem nodes_lt_of_pipeline {form check step : Form} {thread : Thread}
    {pairs : List (Form × Form)} (h : parse form = .ok (.pipeline thread pairs))
    (hp : (check, step) ∈ pairs) : check.nodes < form.nodes := by
  have hargs := nodesOf_args_lt form
  rcases parse_cases h with hg | hg | ⟨_, _, hu, hg⟩ | ⟨_, _, _, _, _, _, hg⟩ <;> cases hg
  have := nodes_add_le_nodesOf hu hp
  omega

theorem nodes_lt_of_destructure {form e a : Form} {b : Binding}
    {pairs : List (Form × Form)} (h : parse form = .ok (.destructure b pairs))
    (hp : (e, a) ∈ pairs) : e.nodes + a.nodes < form.nodes := by
  have hargs := nodesOf_args_lt form
  rcases parse_cases h with hg | hg | ⟨_, _, _, hg⟩ | ⟨_, rest, _, _, ha, hu, hg⟩ <;> cases hg
  have := nodes_add_le_nodesOf hu hp
  rw [ha, nodesOf] at hargs
  omega

end Grouping

namespace Traversal

/-- Putting several forms into one adds two nodes at most. -/
theorem nodes_bodyForm_le (body : List Form) : (bodyForm body).nodes ≤ nodesOf body + 2 := by
  unfold bodyForm
  split
  · simp [nodesOf]
  · simp only [Form.nodes, nodesOf]; omega

theorem eq_bodyForm_of_parseFromEach {form : Form} {t : Traversal}
    (h : parseFromEach form = .ok t) :
    ∃ items body clauses, form.args = .vector items :: body ∧
      t = .perElement clauses (bodyForm body) := by
  unfold parseFromEach at h
  split at h
  · cases h
  · rename_i items body hargs
    split at h
    · cases h
    · cases hc : parseClauses form items with
      | error d => rw [hc] at h; cases h
      | ok clauses => rw [hc] at h; cases h; exact ⟨items, body, clauses, hargs, rfl⟩
  · cases h

theorem nodes_lt_of_perElement {form body : Form} {clauses : List Clause}
    (h : parse? form = some (.ok (.perElement clauses body))) : body.nodes < form.nodes := by
  unfold parse? at h
  split at h
  · obtain ⟨items, forms, cs, hargs, ht⟩ := eq_bodyForm_of_parseFromEach (Option.some.inj h)
    cases ht
    have hne : form.args ≠ [] := by simp [hargs]
    have hlt := nodesOf_args_add_one_lt hne
    rw [hargs, nodesOf] at hlt
    have := nodes_bodyForm_le forms
    have := (Form.vector items).nodes_pos
    omega
  · unfold parseIn at h
    split at h <;> cases h
  · cases h

end Traversal

namespace Plan

mutual

/-- How deeply a plan nests. -/
def depth : Plan → Nat
  | primitive | malformed _ => 1
  | conjunction parts => depthOfParts parts + 1
  | pipeline _ steps => depthOfPairs steps + 1
  | destructure _ pairs => depthOfPairs pairs + 1
  | perElement _ _ next => next.depth + 1
  | contains _ next => next.depth + 1

/-- How deeply the plans of several parts nest. -/
def depthOfParts : List (Form × Plan) → Nat
  | [] => 0
  | (_, plan) :: rest => max plan.depth (depthOfParts rest)

/-- How deeply the plans of several pairs nest. -/
def depthOfPairs : List (Form × Form × Plan) → Nat
  | [] => 0
  | (_, _, plan) :: rest => max plan.depth (depthOfPairs rest)

end

/-- The plan of an actual form around the plan for each of its subjects. -/
def around (inner : Plan) (actual : Form) : Plan :=
  match _h : Traversal.parse? actual with
  | none => inner
  | some (.error d) => .malformed d
  | some (.ok (.contains collection)) => .contains collection inner
  | some (.ok (.perElement clauses body)) => .perElement clauses body (around inner body)
termination_by actual.nodes
decreasing_by exact Traversal.nodes_lt_of_perElement _h

/-- The plan of an expected form for a value that is known. -/
def ofExpected (form : Form) : Plan :=
  match _h : Grouping.parse form with
  | .error d => .malformed d
  | .ok .primitive => .primitive
  | .ok (.conjunction expecteds) =>
    .conjunction (expecteds.attach.map fun ⟨e, _⟩ => (e, ofExpected e))
  | .ok (.pipeline thread pairs) =>
    .pipeline thread
      (pairs.attach.map fun ⟨(check, step), _⟩ => (check, step, ofExpected check))
  | .ok (.destructure binding pairs) =>
    .destructure binding
      (pairs.attach.map fun ⟨(e, a), _⟩ => (e, a, around (ofExpected e) a))
termination_by form.nodes
decreasing_by
  · exact Grouping.nodes_lt_of_conjunction _h ‹_›
  · exact Grouping.nodes_lt_of_pipeline _h ‹_›
  · exact Nat.lt_of_le_of_lt (Nat.le_add_right ..) (Grouping.nodes_lt_of_destructure _h ‹_›)

/-- The plan of an assertion. -/
def ofForms (expected actual : Form) : Plan := around (ofExpected expected) actual

/-! ## One step of a plan -/

theorem around_eq (inner : Plan) (actual : Form) :
    around inner actual =
      match Traversal.parse? actual with
      | none => inner
      | some (.error d) => .malformed d
      | some (.ok (.contains collection)) => .contains collection inner
      | some (.ok (.perElement clauses body)) =>
        .perElement clauses body (around inner body) := by
  rw [around]
  split <;> simp_all

theorem ofExpected_eq (form : Form) :
    ofExpected form =
      match Grouping.parse form with
      | .error d => .malformed d
      | .ok .primitive => .primitive
      | .ok (.conjunction expecteds) =>
        .conjunction (expecteds.map fun e => (e, ofExpected e))
      | .ok (.pipeline thread pairs) =>
        .pipeline thread (pairs.map fun (check, step) => (check, step, ofExpected check))
      | .ok (.destructure binding pairs) =>
        .destructure binding (pairs.map fun (e, a) => (e, a, around (ofExpected e) a)) := by
  rw [ofExpected]
  split <;> simp_all
  · exact @List.attach_map_val _ _ _ fun (p : Form × Form) => (p.1, p.2, ofExpected p.1)
  · exact @List.attach_map_val _ _ _ fun (p : Form × Form) =>
      (p.1, p.2, around (ofExpected p.1) p.2)

end Plan

end Attest
