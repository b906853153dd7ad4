import Attest.Proofs.Division
/-!
# Adding, subtracting and multiplying integers

Integers are combined from the left, and every result on the way has to be an integer of sixty-four bits. If all of
them are, the call gives the one that is exactly the result; if one of them is not, it fails, even where a later one
would be again. A float never comes out (`Value.arithmetic_of_ints`).
-/

namespace Attest

/-- An integer has a place in sixty-four bits. -/
def Fits (k : Int) : Prop := -2 ^ 63 ≤ k ∧ k < 2 ^ 63

instance (k : Int) : Decidable (Fits k) := inferInstanceAs (Decidable (_ ∧ _))

theorem fits_toInt (n : Int64) : Fits n.toInt := ⟨n.le_toInt, n.toInt_lt⟩

/-! ## Combining from the left -/

namespace Operation

/-- The exact result of combining integers from the left. -/
def exactly (op : Operation) (start : Int) (ns : List Int64) : Int := (ns.map Int64.toInt).foldl op.onInts start

variable {op : Operation} {start n : Int64} {ns part : List Int64}

@[simp]
theorem exactly_nil (op : Operation) (k : Int) : op.exactly k [] = k := rfl

@[simp]
theorem exactly_cons (op : Operation) (k : Int) (n : Int64) (ns : List Int64) :
    op.exactly k (n :: ns) = op.exactly (op.onInts k n.toInt) ns := rfl

theorem exactly_plus (k : Int) (ns : List Int64) : plus.exactly k ns = k + (ns.map Int64.toInt).sum := by
  induction ns generalizing k with
  | nil => exact (Int.add_zero k).symm
  | cons n ns ih => rw [exactly_cons, ih, List.map_cons, List.sum_cons, ← Int.add_assoc, plus]

theorem exactly_minus (k : Int) (ns : List Int64) : minus.exactly k ns = k - (ns.map Int64.toInt).sum := by
  induction ns generalizing k with
  | nil => exact (Int.sub_zero k).symm
  | cons n ns ih => rw [exactly_cons, ih, List.map_cons, List.sum_cons, ← Int.sub_sub, minus]

theorem exactly_times (k : Int) (ns : List Int64) : times.exactly k ns = k * (ns.map Int64.toInt).prod := by
  induction ns generalizing k with
  | nil => exact (Int.mul_one k).symm
  | cons n ns ih => rw [exactly_cons, ih, List.map_cons, List.prod_cons, ← Int.mul_assoc, times]

/-- A step to an integer that fits. -/
theorem foldInts_cons_of_fits (ns : List Int64) (h : Fits (op.onInts start.toInt n.toInt)) :
    ∃ next : Int64, next.toInt = op.onInts start.toInt n.toInt ∧
      op.foldInts start (n :: ns) = op.foldInts next ns := by
  cases hnext : int64? (op.onInts start.toInt n.toInt) with
  | none => exact absurd h (int64?_eq_none_iff.1 hnext)
  | some next =>
    refine ⟨next, int64?_eq_some_iff.1 hnext, ?_⟩
    rw [foldInts, List.foldlM_cons, hnext]
    rfl

/-- A step to an integer that does not fit ends the computation. -/
theorem foldInts_cons_of_not_fits (ns : List Int64) (h : ¬Fits (op.onInts start.toInt n.toInt)) :
    op.foldInts start (n :: ns) = .error overflow := by
  rw [foldInts, List.foldlM_cons, int64?_eq_none_iff.2 h]
  rfl

/-- If every result on the way fits, the last one is the exact result. -/
theorem foldInts_of_fits (h : ∀ part, part <+: ns → Fits (op.exactly start.toInt part)) :
    ∃ r : Int64, r.toInt = op.exactly start.toInt ns ∧ op.foldInts start ns = .ok r := by
  induction ns generalizing start with
  | nil => exact ⟨start, rfl, rfl⟩
  | cons n ns ih =>
    obtain ⟨next, hnext, hstep⟩ := foldInts_cons_of_fits ns (h [n] (List.prefix_append [n] ns))
    have hparts : ∀ part, part <+: ns → Fits (op.exactly next.toInt part) := by
      intro part hpart
      rw [hnext]
      exact h (n :: part) (List.cons_prefix_cons.2 ⟨rfl, hpart⟩)
    obtain ⟨r, hr, hrest⟩ := ih hparts
    exact ⟨r, by rw [hr, hnext, exactly_cons], hstep.trans hrest⟩

/-- If one result on the way does not fit, the computation fails. -/
theorem foldInts_of_not_fits (hpart : part <+: ns) (h : ¬Fits (op.exactly start.toInt part)) :
    op.foldInts start ns = .error overflow := by
  induction ns generalizing start part with
  | nil =>
    rw [List.prefix_nil.1 hpart] at h
    exact absurd (fits_toInt start) h
  | cons n ns ih =>
    rcases List.prefix_cons_iff.1 hpart with rfl | ⟨rest, rfl, hrest⟩
    · exact absurd (fits_toInt start) h
    · -- The first result that does not fit ends the computation, so what a later one would be does not count.
      by_cases hn : Fits (op.onInts start.toInt n.toInt)
      · obtain ⟨next, hnext, hstep⟩ := foldInts_cons_of_fits ns hn
        rw [exactly_cons, ← hnext] at h
        exact hstep.trans (ih hrest h)
      · exact foldInts_cons_of_not_fits ns hn

/-- Integers are combined as integers, not as floats. -/
theorem fold_ints (op : Operation) (start : Int64) (ns : List Int64) :
    op.fold (.int start) (ns.map .int) = (op.foldInts start ns).map .int := by
  have hints : ints? (ns.map .int) = some ns := by
    induction ns with
    | nil => rfl
    | cons n ns ih =>
      rw [ints?] at ih ⊢
      rw [List.map_cons, List.mapM_cons, ih]
      rfl
  simp only [fold, hints]

end Operation

/-! ## The functions -/

namespace Value

open Operation

/-- A call that computes `result` of integers: if `result` fits for every number of the first of them, it gives what
`result` is for all; if one does not fit, it fails. -/
structure Exact (f : Value) (args : List Value) (result : List Int64 → Int) (ns : List Int64) : Prop where
  gives : (∀ part, part <+: ns → Fits (result part)) → ∃ r : Int64, r.toInt = result ns ∧ Gives f args (.int r)
  throws : (∃ part, part <+: ns ∧ ¬Fits (result part)) → Throws f args overflow
  no_float : ∀ x, ¬Gives f args (.float x)

section

variable {f v w : Value} {t : Thrown} {b : Builtin} {args : List Value} {op : Operation}
  {ns : List Int64} {result : List Int64 → Int}

theorem Gives.eq (hv : Gives f args v) (hw : Gives f args w) : v = w := by
  cases congrFun ((hv 0 []).symm.trans (hw 0 [])) {}
  rfl

theorem Throws.not_gives (ht : Throws f args t) : ¬Gives f args v := by
  intro hv
  cases congrFun ((ht 0 []).symm.trans (hv 0 [])) {}

/-- A function that combines integers from the left computes what combining them comes to. -/
theorem exact_of_fold (start : Int64) (hb : ∀ call site, b.call call site args = Run.ofExcept (b.compute args))
    (hcompute : b.compute args = op.fold (.int start) (ns.map int))
    (hresult : ∀ ms, op.exactly start.toInt ms = result ms) : Exact (.fn (.builtin b)) args result ns := by
  rw [fold_ints] at hcompute
  have hgives : (∀ part, part <+: ns → Fits (result part)) →
      ∃ r : Int64, r.toInt = result ns ∧ Gives (.fn (.builtin b)) args (.int r) := by
    intro hfits
    have hparts : ∀ part, part <+: ns → Fits (op.exactly start.toInt part) := by
      simpa only [hresult] using hfits
    obtain ⟨r, hr, hfold⟩ := foldInts_of_fits hparts
    rw [hfold] at hcompute
    exact ⟨r, hr.trans (hresult ns), gives_of_compute hb hcompute⟩
  have hthrows : (∃ part, part <+: ns ∧ ¬Fits (result part)) → Throws (.fn (.builtin b)) args overflow := by
    rintro ⟨part, hpart, hunfit⟩
    rw [← hresult] at hunfit
    rw [foldInts_of_not_fits hpart hunfit] at hcompute
    exact throws_of_compute hb hcompute
  refine ⟨hgives, hthrows, fun x hx => ?_⟩
  by_cases hfits : ∀ part, part <+: ns → Fits (result part)
  · obtain ⟨r, -, hr⟩ := hgives hfits
    cases hr.eq hx
  · push Not at hfits
    exact (hthrows hfits).not_gives hx

end

/-- Sums, products and differences of integers are exact or fail, whatever the number of integers; one alone is taken
from zero. Adding one and taking one away are the sum and the difference with one, for all values. -/
theorem arithmetic_of_ints (n : Int64) (ns : List Int64) :
    Exact (.fn (.builtin .add)) (ns.map int) (fun ms => (ms.map Int64.toInt).sum) ns ∧
    Exact (.fn (.builtin .mul)) (ns.map int) (fun ms => (ms.map Int64.toInt).prod) ns ∧
    Exact (.fn (.builtin .sub)) [.int n] (fun ms => 0 - (ms.map Int64.toInt).sum) [n] ∧
    (∀ m, Exact (.fn (.builtin .sub)) (.int n :: .int m :: ns.map int)
      (fun ms => n.toInt - (ms.map Int64.toInt).sum) (m :: ns)) ∧
    Exact (.fn (.builtin .inc)) [.int n] (fun ms => (ms.map Int64.toInt).sum) [n, 1] ∧
    Exact (.fn (.builtin .dec)) [.int n] (fun ms => n.toInt - (ms.map Int64.toInt).sum) [1] ∧
    ∀ (depth : Nat) (site : Site) (v : Value),
      apply (depth + 1) site (.fn (.builtin .inc)) [v] = apply (depth + 1) site (.fn (.builtin .add)) [v, .int 1] ∧
      apply (depth + 1) site (.fn (.builtin .dec)) [v] = apply (depth + 1) site (.fn (.builtin .sub)) [v, .int 1] := by
  have hsum : ∀ ms, plus.exactly (0 : Int64).toInt ms = (ms.map Int64.toInt).sum :=
    fun ms => (exactly_plus 0 ms).trans (Int.zero_add _)
  have hproduct : ∀ ms, times.exactly (1 : Int64).toInt ms = (ms.map Int64.toInt).prod :=
    fun ms => (exactly_times 1 ms).trans (Int.one_mul _)
  exact ⟨exact_of_fold 0 (fun _ _ => rfl) rfl hsum, exact_of_fold 1 (fun _ _ => rfl) rfl hproduct,
    exact_of_fold 0 (fun _ _ => rfl) rfl (exactly_minus 0),
    fun _ => exact_of_fold n (fun _ _ => rfl) rfl (exactly_minus n.toInt),
    exact_of_fold 0 (fun _ _ => rfl) rfl hsum, exact_of_fold n (fun _ _ => rfl) rfl (exactly_minus n.toInt),
    fun _ _ _ => ⟨rfl, rfl⟩⟩

/-- The order counts: what one sum exceeds, a later summand does not make good. -/
example : sum [.int Int64.maxValue, .int 1, .int (-1)] = .error overflow ∧
    sum [.int Int64.maxValue, .int (-1), .int 1] = .ok (.int Int64.maxValue) := ⟨rfl, rfl⟩

end Value

end Attest
