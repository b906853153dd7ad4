import Attest.Pairs
import Attest.Value.Basic
/-!
# The number of nodes of a form

Literals and symbols are one node, and a collection is one node more than what is in it. So
each part of a form has fewer nodes than the form, also two parts of it together.
-/

namespace Attest

mutual

/-- The number of nodes of a form. -/
def Form.nodes : Form → Nat
  | .lit _ | .sym _ => 1
  | .list items | .vector items => nodesOf items + 1
  | .map entries => nodesOfEntries entries + 1

/-- The number of nodes of several forms. -/
def nodesOf : List Form → Nat
  | [] => 0
  | f :: fs => f.nodes + nodesOf fs

/-- The number of nodes of the entries of a map form. -/
def nodesOfEntries : List (Form × Form) → Nat
  | [] => 0
  | (k, v) :: rest => k.nodes + v.nodes + nodesOfEntries rest

end

theorem Form.nodes_pos (form : Form) : 0 < form.nodes := by cases form <;> simp [Form.nodes]

theorem nodes_le_nodesOf {form : Form} {forms : List Form} (h : form ∈ forms) :
    form.nodes ≤ nodesOf forms := by
  induction forms with
  | nil => cases h
  | cons f fs ih =>
    rcases List.mem_cons.1 h with rfl | h
    · simp [nodesOf]
    · have := ih h
      simp only [nodesOf]
      omega

theorem nodes_add_le_nodesOfEntries {e : Form × Form} {es : List (Form × Form)} (h : e ∈ es) :
    e.1.nodes + e.2.nodes ≤ nodesOfEntries es := by
  induction es with
  | nil => cases h
  | cons e' es ih =>
    obtain ⟨k, v⟩ := e'
    simp only [nodesOfEntries]
    rcases List.mem_cons.1 h with rfl | h
    · exact Nat.le_add_right _ _
    · have := ih h
      omega

theorem nodesOf_append (as bs : List Form) : nodesOf (as ++ bs) = nodesOf as + nodesOf bs := by
  induction as with
  | nil => simp [nodesOf]
  | cons a as ih => simp [nodesOf, ih, Nat.add_assoc]

/-- Two forms that stand side by side have together no more nodes than all of them. -/
theorem nodes_add_le_nodesOf {forms : List Form} {pairs : List (Form × Form)} {a b : Form}
    (h : pairUp? forms = some pairs) (hab : (a, b) ∈ pairs) :
    a.nodes + b.nodes ≤ nodesOf forms := by
  fun_induction pairUp? forms generalizing pairs with
  | case1 => cases h; cases hab
  | case2 => cases h
  | case3 x y rest ih =>
    obtain ⟨ps, hps, rfl⟩ := Option.map_eq_some_iff.1 h
    rcases List.mem_cons.1 hab with hxy | hab
    · cases hxy
      simp only [nodesOf]
      omega
    · have := ih hps hab
      simp only [nodesOf]
      omega

/-- What follows the head of a form has fewer nodes than the form. -/
theorem nodesOf_args_lt (form : Form) : nodesOf form.args < form.nodes := by
  cases form with
  | list items =>
    cases items with
    | nil => simp [Form.args, Form.nodes, nodesOf]
    | cons head rest => simp only [Form.args, Form.nodes, nodesOf]; omega
  | _ => simp [Form.args, Form.nodes, nodesOf]

/-- A form with a head has two nodes more than what follows the head. -/
theorem nodesOf_args_add_one_lt {form : Form} (h : form.args ≠ []) :
    nodesOf form.args + 1 < form.nodes := by
  cases form with
  | list items =>
    cases items with
    | nil => simp [Form.args] at h
    | cons head rest =>
      have := head.nodes_pos
      simp only [Form.args, Form.nodes, nodesOf]
      omega
  | _ => simp [Form.args] at h

end Attest
