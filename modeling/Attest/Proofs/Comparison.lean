import Attest.Proofs.FiniteMap
import Attest.Proofs.Nearest
/-!
# Comparing integers

Numbers are compared as floats, so integers are compared by the floats that are nearest to them. Different integers
may be nearest to one float, and then count as equal; all others compare like values do, and those of up to
`2 ^ 53` are all others (`Value.comparison_of_ints`).
-/

namespace Attest

open Decimal

/-- The orders of two numbers that a comparison accepts. -/
def Comparison.accepts : Comparison → Ordering → Bool
  | .lt, o => o == .lt
  | .gt, o => o == .gt
  | .le, o => o.isLE
  | .ge, o => o.isGE

/-- Different integers that are nearest to one float. -/
def FallTogether (a b : Int64) : Prop := a ≠ b ∧ nearestInt a.toInt = nearestInt b.toInt

instance (a b : Int64) : Decidable (FallTogether a b) := inferInstanceAs (Decidable (_ ∧ _))

/-- The order in which a comparison sees integers. -/
def seenOrder (a b : Int64) : Ordering :=
  if FallTogether a b then .eq else (Value.int a).compare (.int b)

theorem chain_iff {α : Type} {r : α → α → Bool} {xs : List α} :
    chain r xs = true ↔ xs.IsChain fun a b => r a b = true := by
  induction xs with
  | nil => simp [chain]
  | cons x xs ih =>
    cases xs with
    | nil => simp [chain]
    | cons y ys => rw [chain, Bool.and_eq_true, ih, List.isChain_cons_cons]

/-! ## Two integers -/

theorem compare_int (a b : Int64) : (Value.int a).compare (.int b) = compare a.toInt b.toInt := by
  rw [Value.compare]

/-- Small integers are floats, so no two of them fall together. -/
theorem not_fallTogether_of_le {a b : Int64} (ha : a.toInt.natAbs ≤ 2 ^ 53) (hb : b.toInt.natAbs ≤ 2 ^ 53) :
    ¬FallTogether a b := by
  rintro ⟨hne, heq⟩
  rw [nearestInt_of_natAbs_le ha, nearestInt_of_natAbs_le hb] at heq
  exact hne (Int64.toInt_inj.1 heq)

/-- The order of the floats nearest to integers. -/
theorem compare_nearestInt (a b : Int64) : compare (nearestInt a.toInt) (nearestInt b.toInt) = seenOrder a b := by
  unfold seenOrder
  split
  · next h => exact compare_eq_iff_eq.2 h.2
  · next h =>
    rw [compare_int]
    rcases lt_trichotomy a.toInt b.toInt with hlt | heq | hgt
    · have hne : nearestInt a.toInt ≠ nearestInt b.toInt := fun hsame => h ⟨fun hab => hlt.ne (hab ▸ rfl), hsame⟩
      rw [compare_lt_iff_lt.2 hlt, compare_lt_iff_lt.2 (lt_of_le_of_ne (nearestInt_mono hlt.le) hne)]
    · rw [heq]
      exact (compare_eq_iff_eq.2 rfl).trans (compare_eq_iff_eq.2 rfl).symm
    · have hne : nearestInt b.toInt ≠ nearestInt a.toInt :=
        fun hsame => h ⟨fun hab => hgt.ne (hab ▸ rfl), hsame.symm⟩
      rw [compare_gt_iff_gt.2 hgt, compare_gt_iff_gt.2 (lt_of_le_of_ne (nearestInt_mono hgt.le) hne)]

/-- Floats are compared like the integers that they stand for. -/
theorem Comparison.holds_eq_accepts (c : Comparison) {x y : Float} {m n : Int} (hx : StandsFor x m)
    (hy : StandsFor y n) : c.holds x y = c.accepts (compare m n) := by
  rw [Bool.eq_iff_iff]
  cases c with
  | lt =>
    show decide (x < y) = true ↔ (compare m n == .lt) = true
    rw [decide_eq_true_iff, hx.lt_iff hy, beq_iff_eq, compare_lt_iff_lt, Int.cast_lt]
  | gt =>
    show decide (y < x) = true ↔ (compare m n == .gt) = true
    rw [decide_eq_true_iff, hy.lt_iff hx, beq_iff_eq, compare_gt_iff_gt, Int.cast_lt]
  | le =>
    show decide (x ≤ y) = true ↔ (compare m n).isLE = true
    rw [decide_eq_true_iff, hx.le_iff hy, Int.isLE_compare, Int.cast_le]
  | ge =>
    show decide (y ≤ x) = true ↔ (compare m n).isGE = true
    rw [decide_eq_true_iff, hy.le_iff hx, Int.isGE_compare, Int.cast_le]

theorem Comparison.holds_floatOfInt (c : Comparison) (a b : Int64) :
    c.holds (floatOfInt a) (floatOfInt b) = c.accepts (seenOrder a b) := by
  rw [c.holds_eq_accepts (standsFor_floatOfInt a) (standsFor_floatOfInt b), compare_nearestInt]

/-! ## Several integers -/

namespace Value

theorem mapM_toFloat_ints (ns : List Int64) : (ns.map int).mapM toFloat = .ok (ns.map floatOfInt) := by
  induction ns with
  | nil => rfl
  | cons n ns ih =>
    rw [List.map_cons, List.mapM_cons, ih]
    rfl

/-- Integers are compared as floats. -/
theorem gives_comparison (c : Comparison) (ns : List Int64) :
    Gives (.fn (.builtin (.compare c))) (ns.map int) (.bool (chain c.holds (ns.map floatOfInt))) := by
  have hcompute : c.apply (ns.map int) = .ok (.bool (chain c.holds (ns.map floatOfInt))) := by
    rw [Comparison.apply, mapM_toFloat_ints]
    rfl
  exact gives_of_compute (fun _ _ => rfl) hcompute

theorem chain_holds_iff (c : Comparison) (ns : List Int64) : chain c.holds (ns.map floatOfInt) = true ↔
    ns.IsChain fun a b => c.accepts (seenOrder a b) = true := by
  rw [chain_iff, List.isChain_map]
  simp only [c.holds_floatOfInt]

/-- Where no integers fall together, they are seen in their own order. -/
theorem isChain_seenOrder_iff (c : Comparison) {ns : List Int64} (h : ∀ n ∈ ns, n.toInt.natAbs ≤ 2 ^ 53) :
    (ns.IsChain fun a b => c.accepts (seenOrder a b) = true) ↔
      ns.IsChain fun a b => c.accepts ((Value.int a).compare (.int b)) = true := by
  refine List.IsChain.iff_of_mem_imp fun a b ha hb => ?_
  rw [seenOrder, if_neg (not_fallTogether_of_le (h a ha) (h b hb))]

/-- An integer is never seen before one that it does not come before. -/
theorem accepts_seenOrder_of_ne_gt {a b : Int64} (h : (Value.int a).compare (.int b) ≠ .gt) :
    Comparison.le.accepts (seenOrder a b) = true := by
  show (seenOrder a b).isLE = true
  unfold seenOrder
  split
  · rfl
  · exact Ordering.isLE_iff_ne_gt.2 h

/-- Integers in the order of values. -/
def sortInts (ns : List Int64) : List Int64 := ns.mergeSort fun a b => (Value.int a).compare (.int b) != .gt

theorem sortValues_ints (ns : List Int64) : sortValues (ns.map int) = (sortInts ns).map int :=
  (List.map_mergeSort (r := fun a b : Int64 => (Value.int a).compare (.int b) != .gt)
    (s := fun v w : Value => v.compare w != .gt) (f := int) fun _ _ _ _ => rfl).symm

theorem isChain_sortInts (ns : List Int64) :
    (sortInts ns).IsChain fun a b => (Value.int a).compare (.int b) ≠ .gt := by
  have hsorted : (sortInts ns).Pairwise fun a b => ((Value.int a).compare (.int b) != .gt) = true := by
    refine List.pairwise_mergeSort ?_ ?_ ns
    · intro a b c hab hbc
      rw [bne_iff_ne, compare_int, compare_le_iff_le] at hab hbc ⊢
      exact hab.trans hbc
    · intro a b
      rw [Bool.or_eq_true, bne_iff_ne, bne_iff_ne, compare_int, compare_int, compare_le_iff_le, compare_le_iff_le]
      exact Int.le_total _ _
  exact hsorted.isChain.imp fun a b hab => bne_iff_ne.1 hab

/-- Comparing integers always gives an answer. It is the one about their order, except that integers count as equal
when they are nearest to one float, which none of up to `2 ^ 53` are; and so `<=` holds of what `sort` gives. -/
theorem comparison_of_ints (ns : List Int64) :
    (∀ c : Comparison, ∃ answer : Bool, Gives (.fn (.builtin (.compare c))) (ns.map int) (.bool answer) ∧
      (answer = true ↔ ns.IsChain fun a b => c.accepts (seenOrder a b) = true) ∧
      ((∀ n ∈ ns, n.toInt.natAbs ≤ 2 ^ 53) →
        (answer = true ↔ ns.IsChain fun a b => c.accepts ((Value.int a).compare (.int b)) = true))) ∧
    ∃ ms : List Int64, ms.Perm ns ∧ Gives (.fn (.builtin .sort)) [.list (ns.map int)] (.list (ms.map int)) ∧
      Gives (.fn (.builtin (.compare .le))) (ms.map int) (.bool true) := by
  refine ⟨fun c => ⟨_, gives_comparison c ns, chain_holds_iff c ns, fun h => ?_⟩,
    sortInts ns, List.mergeSort_perm _ _, ?_, ?_⟩
  · rw [chain_holds_iff, isChain_seenOrder_iff c h]
  · rw [← sortValues_ints]
    exact gives_of_compute (fun _ _ => rfl) rfl
  · have hle : chain Comparison.le.holds ((sortInts ns).map floatOfInt) = true :=
      (chain_holds_iff .le _).2 ((isChain_sortInts ns).imp fun _ _ => accepts_seenOrder_of_ne_gt)
    rw [← hle]
    exact gives_comparison .le _

/-- Two integers next to each other that are nearest to one float: neither `<` nor `>` holds of them, but `<=` and `>=`
do, though the first comes before the second and is not equal to it. -/
theorem neighbours_fall_together :
    let a : Int64 := 9007199254740992
    let b : Int64 := 9007199254740993
    (Value.int a).compare (.int b) = .lt ∧ (Value.int a == .int b) = false ∧
      Gives (.fn (.builtin (.compare .lt))) [.int a, .int b] (.bool false) ∧
      Gives (.fn (.builtin (.compare .gt))) [.int a, .int b] (.bool false) ∧
      Gives (.fn (.builtin (.compare .le))) [.int a, .int b] (.bool true) ∧
      Gives (.fn (.builtin (.compare .ge))) [.int a, .int b] (.bool true) := by
  intro a b
  have hanswer : ∀ c : Comparison, chain c.holds ([a, b].map floatOfInt) = c.accepts .eq := by
    intro c
    cases c <;> decide +kernel
  have hgives : ∀ c : Comparison, Gives (.fn (.builtin (.compare c))) [.int a, .int b] (.bool (c.accepts .eq)) :=
    fun c => hanswer c ▸ gives_comparison c [a, b]
  exact ⟨by decide +kernel, by decide +kernel, hgives .lt, hgives .gt, hgives .le, hgives .ge⟩

end Value

end Attest
