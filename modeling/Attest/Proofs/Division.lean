import Attest.Proofs.FiniteMap
import Attest.Proofs.Nearest
/-!
# Dividing integers

An integer divided by another one gives the integer that makes up the first when multiplied by the second, if one of
sixty-four bits does; else it gives the quotient of the floats nearest to both, and fails for a zero divisor
(`Value.division_of_ints`). There is an exact quotient that does not fit, the one of the least integer and `-1`.
-/

namespace Attest

open Decimal

/-! ## Integers of sixty-four bits -/

theorem int64?_toInt (q : Int64) : int64? q.toInt = some q := by
  rw [int64?, if_pos ⟨q.minValue_le_toInt, q.toInt_le⟩, Int64.ofInt_toInt]

theorem int64?_eq_some_iff {k : Int} {q : Int64} : int64? k = some q ↔ q.toInt = k := by
  constructor
  · intro h
    unfold int64? at h
    split at h
    · next hk =>
      rw [Int64.toInt_minValue, Int64.toInt_maxValue] at hk
      obtain rfl := Option.some.inj h
      exact Int64.toInt_ofInt_of_le hk.1 (by omega)
    · exact absurd h (by simp)
  · rintro rfl
    exact int64?_toInt q

theorem int64?_eq_none_iff {k : Int} : int64? k = none ↔ ¬(-2 ^ 63 ≤ k ∧ k < 2 ^ 63) := by
  rw [int64?, Int64.toInt_minValue, Int64.toInt_maxValue, ite_eq_right_iff]
  simp only [reduceCtorEq, imp_false, Int.le_sub_one_iff]

/-! ## Quotients -/

/-- The integer that is exactly the quotient of two others. -/
def ExactQuotient (m n q : Int64) : Prop := q.toInt * n.toInt = m.toInt

variable {m n q : Int64}

theorem toInt_ne_zero (hn : n ≠ 0) : n.toInt ≠ 0 := fun h => hn (Int64.toInt_inj.1 h)

theorem quotient_of_zero (m : Int64) : quotient (.int m) (.int 0) = .error zeroDivision := rfl

theorem quotient_of_exact (hn : n ≠ 0) (h : ExactQuotient m n q) : quotient (.int m) (.int n) = .ok (.int q) := by
  have hmod : Int.tmod m.toInt n.toInt = 0 := Int.tmod_eq_zero_of_dvd ⟨q.toInt, by rw [← h, Int.mul_comm]⟩
  have hdiv : Int.tdiv m.toInt n.toInt = q.toInt := by rw [← h, Int.mul_tdiv_cancel _ (toInt_ne_zero hn)]
  rw [quotient, if_neg (toInt_ne_zero hn), if_pos hmod, hdiv, int64?_toInt]

/-- Only zero is nearest to the float zero, so other divisors are divided by. -/
theorem floatQuotient_of_ints (hn : n ≠ 0) :
    floatQuotient (.int m) (.int n) = .ok (.float (floatOfInt m / floatOfInt n)) := by
  have hzero : ¬(floatOfInt n == 0.0) = true := fun h => hn (floatOfInt_beq_zero.1 h)
  show (if (floatOfInt n == 0.0) = true then _ else _) = _
  rw [if_neg hzero]
  rfl

theorem quotient_of_inexact (hn : n ≠ 0) (h : ∀ q, ¬ExactQuotient m n q) :
    quotient (.int m) (.int n) = .ok (.float (floatOfInt m / floatOfInt n)) := by
  rw [quotient, if_neg (toInt_ne_zero hn)]
  split
  · next hmod =>
    split
    · next q hq =>
      have hexact := Int.tdiv_mul_cancel (Int.dvd_of_tmod_eq_zero hmod)
      rw [← int64?_eq_some_iff.1 hq] at hexact
      exact absurd hexact (h q)
    · exact floatQuotient_of_ints hn
  · exact floatQuotient_of_ints hn

/-- An exact quotient is no larger than what is divided, so it fits unless it is the one above all integers. -/
theorem eq_least_of_dvd (hn : n ≠ 0) (hdvd : n.toInt ∣ m.toInt) (h : ∀ q, ¬ExactQuotient m n q) :
    m = Int64.minValue ∧ n = -1 := by
  obtain ⟨k, hk⟩ := hdvd
  have hunfit : int64? k = none := by
    cases hq : int64? k with
    | none => rfl
    | some q =>
      rw [← int64?_eq_some_iff.1 hq, Int.mul_comm] at hk
      exact absurd hk.symm (h q)
  rw [int64?_eq_none_iff] at hunfit
  have hle : k.natAbs ≤ m.toInt.natAbs := by
    rw [hk, Int.natAbs_mul]
    exact Nat.le_mul_of_pos_left _ (Int.natAbs_pos.2 (toInt_ne_zero hn))
  have hlow := m.le_toInt
  have hhigh := m.toInt_lt
  obtain rfl : k = 2 ^ 63 := by omega
  constructor
  · refine Int64.toInt_inj.1 ?_
    rw [Int64.toInt_minValue]
    omega
  · refine Int64.toInt_inj.1 ?_
    show n.toInt = -1
    omega

namespace Value

/-- Dividing an integer by another one always comes to something: to an error for zero, else to the integer that is
exactly the quotient if there is one of sixty-four bits, and to a float if there is none. The one multiple of its
divisor for which there is none is the least integer with the divisor `-1`. -/
theorem division_of_ints (m n : Int64) :
    (n = 0 → Throws (.fn (.builtin .div)) [.int m, .int n] zeroDivision) ∧
    (n ≠ 0 → ∀ q, ExactQuotient m n q → Gives (.fn (.builtin .div)) [.int m, .int n] (.int q)) ∧
    (n ≠ 0 → (∀ q, ¬ExactQuotient m n q) →
      Gives (.fn (.builtin .div)) [.int m, .int n] (.float (floatOfInt m / floatOfInt n))) ∧
    (n ≠ 0 → n.toInt ∣ m.toInt → (∀ q, ¬ExactQuotient m n q) → m = Int64.minValue ∧ n = -1) := by
  refine ⟨?_, fun hn q hq => ?_, fun hn h => ?_, eq_least_of_dvd⟩
  · rintro rfl
    exact throws_of_compute (fun _ _ => rfl) (quotient_of_zero m)
  · exact gives_of_compute (fun _ _ => rfl) (quotient_of_exact hn hq)
  · exact gives_of_compute (fun _ _ => rfl) (quotient_of_inexact hn h)

/-- The least integer is a multiple of `-1`, but divided by it gives the float that is nearest to the quotient. -/
theorem least_over_minus_one :
    (-1 : Int64).toInt ∣ Int64.minValue.toInt ∧ (∀ q, ¬ExactQuotient Int64.minValue (-1) q) ∧
      Gives (.fn (.builtin .div)) [.int Int64.minValue, .int (-1)] (.float 9223372036854775808.0) ∧
      ¬Throws (.fn (.builtin .div)) [.int Int64.minValue, .int (-1)] overflow := by
  have hnone : ∀ q, ¬ExactQuotient Int64.minValue (-1) q := by
    intro q hq
    have hlt := q.toInt_lt
    rw [ExactQuotient, Int64.toInt_minValue] at hq
    change q.toInt * -1 = _ at hq
    omega
  have hfloat : floatOfInt Int64.minValue / floatOfInt (-1) = 9223372036854775808.0 := by decide +kernel
  have hgives : Gives (.fn (.builtin .div)) [.int Int64.minValue, .int (-1)] (.float 9223372036854775808.0) := by
    have hcompute := quotient_of_inexact (by decide) hnone
    rw [hfloat] at hcompute
    exact gives_of_compute (fun _ _ => rfl) hcompute
  refine ⟨by decide, hnone, hgives, fun hthrows => ?_⟩
  cases congrFun ((hgives 0 []).symm.trans (hthrows 0 [])) {}

end Value

end Attest
