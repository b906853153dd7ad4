import Attest.Decimal.Shortest
import Mathlib
/-!
# Rounding to the nearest float

A float of some size is `S · 2 ^ E` for whole numbers `S` and `E` in the ranges of `Canonical`, when nothing
bounds the exponent. The numbers that round to it lie in an interval around it (`Nearby`), which ends half way to
its neighbours; an end is in it when `S` is even. These intervals leave no number out (`exists_nearby`). Rounding
takes each number in one of them, however its leading digits and what was cut off behind them are given
(`Locates`), to the float (`roundWithAccuracy_eq`).
-/

namespace Attest.Decimal

open Float.Model Float.Model.UnpackedFloat

/-! ## What was cut off -/

/-- The number that digits in front of a point stand for together with what is known of those behind it. -/
def Locates (em : ExtendedMantissa) (r : ℚ) : Prop :=
  match em.roundBit, em.stickyBit with
  | false, false => r = em.mantissa
  | false, true => em.mantissa < r ∧ r < em.mantissa + 1 / 2
  | true, false => r = em.mantissa + 1 / 2
  | true, true => em.mantissa + 1 / 2 < r ∧ r < em.mantissa + 1

/-- A whole number nearest to a number, and the even one half way between two. -/
structure RoundsTo (r : ℚ) (n : Nat) : Prop where
  lower : (n : ℚ) - 1 / 2 ≤ r
  upper : r ≤ n + 1 / 2
  even : r = n - 1 / 2 ∨ r = n + 1 / 2 → n % 2 = 0

namespace Locates

variable {em : ExtendedMantissa} {r : ℚ}

theorem floor (h : Locates em r) : em.mantissa ≤ r ∧ r < em.mantissa + 1 := by
  obtain ⟨m, round, sticky⟩ := em
  cases round <;> cases sticky <;> simp only [Locates] at h ⊢ <;> constructor <;> linarith

/-- One digit fewer in front of the point is a number half as large. -/
theorem shiftRightOne (h : Locates em r) : Locates em.shiftRightOne (r / 2) := by
  obtain ⟨m, round, sticky⟩ := em
  -- The digit that is cut off is the last one in front of the point.
  obtain ⟨half, rfl | rfl⟩ : ∃ half, m = 2 * half ∨ m = 2 * half + 1 := ⟨m / 2, by omega⟩
  · have hhalf : 2 * half / 2 = half := by omega
    have hbit : (2 * half % 2 != 0) = false := by simp
    cases round <;> cases sticky <;>
      simp only [Locates, ExtendedMantissa.shiftRightOne, hhalf, hbit, Bool.or_false, Bool.or_true, Nat.cast_mul,
        Nat.cast_ofNat] at h ⊢
    · linarith
    all_goals constructor <;> linarith
  · have hhalf : (2 * half + 1) / 2 = half := by omega
    have hbit : ((2 * half + 1) % 2 != 0) = true := by simp
    cases round <;> cases sticky <;>
      simp only [Locates, ExtendedMantissa.shiftRightOne, hhalf, hbit, Bool.or_false, Bool.or_true, Nat.cast_mul,
        Nat.cast_add, Nat.cast_one, Nat.cast_ofNat] at h ⊢
    · linarith
    all_goals constructor <;> linarith

theorem shiftRight (h : Locates em r) (n : Nat) : Locates (em >>> n) (r / 2 ^ n) := by
  induction n with
  | zero => simpa [HShiftRight.hShiftRight, Nat.repeat] using h
  | succ n ih =>
    have hone := ih.shiftRightOne
    rwa [div_div, ← pow_succ] at hone

/-- The digits in front of the point are rounded to the nearest number. -/
theorem roundedMantissa_eq {n : Nat} (h : Locates em r) (hn : RoundsTo r n) : em.roundedMantissa = n := by
  obtain ⟨m, round, sticky⟩ := em
  obtain ⟨hlower, hupper, heven⟩ := hn
  cases round <;> cases sticky <;> simp only [Locates] at h <;>
    simp only [ExtendedMantissa.roundedMantissa, ExtendedMantissa.accuracy, Accuracy.roundToNearestEven]
  · have h1 : n < m + 1 := by exact_mod_cast (by linarith : (n : ℚ) < m + 1)
    have h2 : m < n + 1 := by exact_mod_cast (by linarith : (m : ℚ) < n + 1)
    omega
  · have h1 : n < m + 1 := by exact_mod_cast (by linarith : (n : ℚ) < m + 1)
    have h2 : m < n + 1 := by exact_mod_cast (by linarith : (m : ℚ) < n + 1)
    omega
  · have h1 : n ≤ m + 1 := by exact_mod_cast (by linarith : (n : ℚ) ≤ m + 1)
    have h2 : m ≤ n := by exact_mod_cast (by linarith : (m : ℚ) ≤ n)
    -- Half way the even one of the two is taken.
    have hn : n = m ∨ n = m + 1 := by omega
    rcases hn with rfl | rfl
    · have := heven (.inr h)
      omega
    · have := heven (.inl (by push_cast; linarith))
      omega
  · have h1 : n < m + 2 := by exact_mod_cast (by linarith : (n : ℚ) < m + 2)
    have h2 : m < n := by exact_mod_cast (by linarith : (m : ℚ) < n)
    omega

end Locates

/-! ## Rounding -/

/-- A significand of no more than fifty-three binary digits and the exponent of its last place. It has fewer
digits only if the exponent is the least one. -/
structure Canonical (S : Nat) (E : Int) : Prop where
  lt : S < 2 ^ 53
  least : -1074 ≤ E
  normal : 2 ^ 52 ≤ S ∨ E = -1074

/-- What a significand and an exponent stand for. -/
def unpacked (sign : Sign) (S : Nat) (E : Int) : UnpackedFloat :=
  if h : S = 0 then .zero sign else .finite sign S E (Nat.pos_of_ne_zero h)

/-- Half the distance from a float to the next smaller one, in units of the last place. -/
def halfBelow (S : Nat) (E : Int) : ℚ := if S = 2 ^ 52 ∧ -1074 < E then 1 / 4 else 1 / 2

/-- The numbers that round to a float. -/
structure Nearby (S : Nat) (E : Int) (q : ℚ) : Prop where
  lower : (S - halfBelow S E) * 2 ^ E ≤ q
  upper : q ≤ (S + 1 / 2) * 2 ^ E
  even : q = (S - halfBelow S E) * 2 ^ E ∨ q = (S + 1 / 2) * 2 ^ E → S % 2 = 0

theorem targetExponent_eq (m : Nat) (e : Int) :
    Format.binary64.targetExponent (totalExponent m e) = max (m.log2 + e - 52) (-1074) := by
  simp only [Format.targetExponent, totalExponent, Format.mantissaBits, Format.minExponent]
  norm_num
  omega

/-- The digits that are left, and the exponent. -/
theorem shiftToTargetExponent_eq {m : Nat} {e t : Int} (acc : Accuracy) (ht : max (m.log2 + e - 52) (-1074) = t)
    (he : e ≤ t) : shiftToTargetExponent Format.binary64 m e acc =
      (ExtendedMantissa.ofMantissaAndAccuracy m acc >>> (t - e).toNat, t) := by
  have hexp : e + ((t - e).toNat : Int) = t := by omega
  rw [shiftToTargetExponent, targetExponent_eq, ht, shiftToExponent, hexp]

/-- A significand that is not too long stays as it is. -/
theorem shiftToTargetExponent_short {m : Nat} {e : Int} (hm : m < 2 ^ 53) (he : -1074 ≤ e) :
    shiftToTargetExponent Format.binary64 m e .exact = (⟨m, false, false⟩, e) := by
  have hlog : m.log2 ≤ 52 := by
    rcases Nat.eq_zero_or_pos m with rfl | hpos
    · exact Nat.zero_le _
    · have := (Nat.log2_lt hpos.ne').2 hm
      omega
  have hshift : (max ((m.log2 : Int) + e - 52) (-1074) - e).toNat = 0 := by omega
  rw [shiftToTargetExponent, targetExponent_eq, shiftToExponent, hshift, Int.natCast_zero, Int.add_zero]
  rfl

/-- A float is rounded to itself. -/
theorem Canonical.roundWithAccuracy_exact {S : Nat} {E : Int} (hc : Canonical S E) (sign : Sign) :
    roundWithAccuracy Format.binary64 sign S E .exact = unpacked sign S E := by
  have hrounded : (⟨S, false, false⟩ : ExtendedMantissa).roundedMantissa = S := rfl
  unfold roundWithAccuracy
  rw [shiftToTargetExponent_short hc.lt hc.least]
  dsimp only
  rw [hrounded, shiftToTargetExponent_short hc.lt hc.least]
  rfl

/-- A significand that rounding made too long. -/
theorem shiftToTargetExponent_carry {e : Int} (he : -1074 ≤ e) :
    shiftToTargetExponent Format.binary64 (2 ^ 53) e .exact = (⟨2 ^ 52, false, false⟩, e + 1) := by
  have hlog : (2 ^ 53).log2 = 53 := Nat.log2_two_pow
  have htarget : max (((2 ^ 53).log2 : Int) + e - 52) (-1074) = e + 1 := by
    rw [hlog]
    omega
  have hshift : (e + 1 - e).toNat = 1 := by omega
  rw [shiftToTargetExponent_eq .exact htarget (by omega), hshift]
  rfl

section

variable {S m : Nat} {E e : Int} {q : ℚ}

theorem halfBelow_pos_le (S : Nat) (E : Int) : 0 < halfBelow S E ∧ halfBelow S E ≤ 1 / 2 := by
  unfold halfBelow
  split <;> norm_num

/-- A number from a power of two on has as many binary digits in front of the point. -/
theorem le_log2_add {j : Int} (hj : (2 : ℚ) ^ j ≤ q) (hm : q / 2 ^ e < m + 1) (he : e ≤ j) : j ≤ m.log2 + e := by
  obtain ⟨k, hk⟩ := Int.le.dest he
  have hpow : (2 : ℚ) ^ k = 2 ^ j / 2 ^ e := by
    rw [← hk, zpow_add₀ two_ne_zero, zpow_natCast]
    field_simp
  have hlt : (2 : ℚ) ^ k < m + 1 := by
    calc (2 : ℚ) ^ k = 2 ^ j / 2 ^ e := hpow
      _ ≤ q / 2 ^ e := by gcongr
      _ < m + 1 := hm
  have hle : 2 ^ k < m + 1 := by exact_mod_cast hlt
  have hpos : 0 < 2 ^ k := Nat.two_pow_pos k
  have hlog : k ≤ m.log2 := (Nat.le_log2 (by omega)).2 (by omega)
  omega

/-- A number below a power of two has no more binary digits in front of the point. -/
theorem log2_add_lt {j : Int} (hj : q < (2 : ℚ) ^ j) (hm : m ≤ q / 2 ^ e) (hpos : 0 < m) : m.log2 + e < j := by
  have hself : (2 : ℚ) ^ m.log2 ≤ m := by exact_mod_cast Nat.log2_self_le hpos.ne'
  have hlt : (2 : ℚ) ^ ((m.log2 : Int) + e) < 2 ^ j := by
    calc (2 : ℚ) ^ ((m.log2 : Int) + e) = 2 ^ m.log2 * 2 ^ e := by rw [zpow_add₀ two_ne_zero, zpow_natCast]
      _ ≤ q / 2 ^ e * 2 ^ e := by gcongr; exact hself.trans hm
      _ = q := div_mul_cancel₀ q (by positivity)
      _ < 2 ^ j := hj
  exact (zpow_lt_zpow_iff_right₀ one_lt_two).1 hlt

/-- The exponent to which a number near a float is brought: the float's, or one less when the float is a power
of two. -/
theorem target_cases (hc : Canonical S E) (hq : Nearby S E q) (hfloor : m ≤ q / 2 ^ e ∧ q / 2 ^ e < m + 1)
    (he : e ≤ max (m.log2 + e - 52) (-1074)) :
    max (m.log2 + e - 52) (-1074) = E ∨
      max (m.log2 + e - 52) (-1074) = E - 1 ∧ S = 2 ^ 52 ∧ -1074 < E := by
  have hpow : (0 : ℚ) < 2 ^ E := by positivity
  have hleast := hc.least
  have hS : (S : ℚ) + 1 ≤ 2 ^ 53 := by exact_mod_cast hc.lt
  obtain ⟨hhalf, hhalf_le⟩ := halfBelow_pos_le S E
  -- It is not above the float's, as the number is below the next power of two.
  have hupper : max (m.log2 + e - 52) (-1074) ≤ E := by
    rcases Nat.eq_zero_or_pos m with rfl | hpos
    · have : (0 : Nat).log2 = 0 := Nat.log2_zero
      omega
    · have hlt : q < (2 : ℚ) ^ (E + 53) := by
        calc q ≤ (S + 1 / 2) * 2 ^ E := hq.upper
          _ < 2 ^ 53 * 2 ^ E := by gcongr; linarith
          _ = 2 ^ (E + 53) := by rw [zpow_add₀ two_ne_zero, mul_comm]; norm_num
      have := log2_add_lt hlt hfloor.1 hpos
      omega
  by_cases hE : E = -1074
  · left
    omega
  have hnormal : 2 ^ 52 ≤ S := hc.normal.resolve_right hE
  by_cases hpower : S = 2 ^ 52
  · -- The next smaller float is nearer, and what rounds to the power of two may lie below it.
    have hS' : (S : ℚ) = 2 ^ 52 := by exact_mod_cast hpower
    have hle : (2 : ℚ) ^ (E + 51) ≤ q := by
      calc (2 : ℚ) ^ (E + 51) = 2 ^ 51 * 2 ^ E := by rw [zpow_add₀ two_ne_zero, mul_comm]; norm_num
        _ ≤ (S - halfBelow S E) * 2 ^ E := by gcongr; linarith
        _ ≤ q := hq.lower
    have := le_log2_add hle hfloor.2 (by omega)
    rcases eq_or_lt_of_le hupper with h | h
    · exact .inl h
    · exact .inr ⟨by omega, hpower, by omega⟩
  · have hS' : (2 : ℚ) ^ 52 + 1 ≤ S := by exact_mod_cast (by omega : 2 ^ 52 + 1 ≤ S)
    have hle : (2 : ℚ) ^ (E + 52) ≤ q := by
      calc (2 : ℚ) ^ (E + 52) = 2 ^ 52 * 2 ^ E := by rw [zpow_add₀ two_ne_zero, mul_comm]; norm_num
        _ ≤ (S - halfBelow S E) * 2 ^ E := by gcongr; linarith
        _ ≤ q := hq.lower
    have := le_log2_add hle hfloor.2 (by omega)
    left
    omega

/-- A number near a float is nearest to it among the multiples of its last place. -/
theorem Nearby.roundsTo (hq : Nearby S E q) : RoundsTo (q / 2 ^ E) S := by
  have hpow : (0 : ℚ) < 2 ^ E := by positivity
  obtain ⟨-, hhalf⟩ := halfBelow_pos_le S E
  have hlower : S - halfBelow S E ≤ q / 2 ^ E := (le_div_iff₀ hpow).2 hq.lower
  refine ⟨by linarith, (div_le_iff₀ hpow).2 hq.upper, ?_⟩
  rintro (h | h)
  · have hbelow : halfBelow S E = 1 / 2 := by linarith
    refine hq.even (.inl ?_)
    rw [hbelow, ← h, div_mul_cancel₀ q hpow.ne']
  · refine hq.even (.inr ?_)
    rw [← h, div_mul_cancel₀ q hpow.ne']

/-- A number near a power of two, and below it, is nearest to it among the multiples of the smaller last place. -/
theorem Nearby.roundsTo_below (hq : Nearby (2 ^ 52) E q) (hE : -1074 < E) (hlt : q < 2 ^ (E + 52)) :
    RoundsTo (q / 2 ^ (E - 1)) (2 ^ 53) := by
  have hpow : (0 : ℚ) < 2 ^ (E - 1) := by positivity
  have hhalf : halfBelow (2 ^ 52) E = 1 / 4 := if_pos ⟨rfl, hE⟩
  have hdouble : (2 : ℚ) ^ E = 2 * 2 ^ (E - 1) := by
    rw [← zpow_one_add₀ two_ne_zero]
    congr 1
    omega
  have hlower : (2 : ℚ) ^ 53 - 1 / 2 ≤ q / 2 ^ (E - 1) := by
    have h := hq.lower
    rw [hhalf, hdouble] at h
    rw [le_div_iff₀ hpow]
    push_cast at h
    linarith
  have hupper : q / 2 ^ (E - 1) < 2 ^ 53 := by
    have hexp : ((53 : Nat) : Int) + (E - 1) = E + 52 := by omega
    rwa [div_lt_iff₀ hpow, ← zpow_natCast, ← zpow_add₀ two_ne_zero, hexp]
  refine ⟨by push_cast; linarith, by push_cast; linarith, fun _ => by norm_num⟩

/-- A number near a float is rounded to it. -/
theorem roundWithAccuracy_eq (hc : Canonical S E) (hq : Nearby S E q) {acc : Accuracy}
    (hem : Locates (.ofMantissaAndAccuracy m acc) (q / 2 ^ e)) (he : e ≤ max (m.log2 + e - 52) (-1074))
    (sign : Sign) : roundWithAccuracy Format.binary64 sign m e acc = unpacked sign S E := by
  have hmantissa : (ExtendedMantissa.ofMantissaAndAccuracy m acc).mantissa = m := by
    cases acc with
    | exact => rfl
    | inexact o => cases o <;> rfl
  have hfloor := hem.floor
  rw [hmantissa] at hfloor
  -- What is left in front of the point when the number is brought to an exponent.
  have hshift : ∀ t, e ≤ t →
      Locates (ExtendedMantissa.ofMantissaAndAccuracy m acc >>> (t - e).toNat) (q / 2 ^ t) := by
    intro t ht
    have h := hem.shiftRight (t - e).toNat
    rw [div_div, ← zpow_natCast, ← zpow_add₀ two_ne_zero] at h
    rwa [show e + ((t - e).toNat : Int) = t by omega] at h
  unfold roundWithAccuracy
  rcases target_cases hc hq hfloor he with ht | ⟨ht, rfl, hE⟩
  · rw [ht] at he
    rw [shiftToTargetExponent_eq acc ht he]
    dsimp only
    rw [(hshift E he).roundedMantissa_eq hq.roundsTo, shiftToTargetExponent_short hc.lt hc.least]
    rfl
  · rw [ht] at he
    have hlt : q < 2 ^ (E + 52) := by
      have hself : (m : ℚ) + 1 ≤ 2 ^ (m.log2 + 1) := by exact_mod_cast Nat.lt_log2_self
      have hpow : (0 : ℚ) < 2 ^ e := by positivity
      calc q = q / 2 ^ e * 2 ^ e := (div_mul_cancel₀ q hpow.ne').symm
        _ < 2 ^ (m.log2 + 1) * 2 ^ e := by gcongr; exact hfloor.2.trans_le hself
        _ = 2 ^ (((m.log2 + 1 : Nat) : Int) + e) := by rw [zpow_add₀ two_ne_zero, zpow_natCast]
        _ ≤ 2 ^ (E + 52) := zpow_le_zpow_right₀ one_le_two (by omega)
    rw [shiftToTargetExponent_eq acc ht he]
    dsimp only
    rw [(hshift (E - 1) he).roundedMantissa_eq (hq.roundsTo_below hE hlt), shiftToTargetExponent_carry (by omega)]
    have hexp : E - 1 + 1 = E := by omega
    dsimp only
    rw [hexp]
    rfl

/-! ## Every number is near a float -/

theorem exists_roundsTo {r : ℚ} (hr : 0 ≤ r) : ∃ n, RoundsTo r n := by
  have hfloor := Nat.floor_le hr
  have hnext := Nat.lt_floor_add_one r
  generalize ⌊r⌋₊ = n at hfloor hnext
  rcases lt_trichotomy r (n + 1 / 2) with h | h | h
  · exact ⟨n, by linarith, h.le, by rintro (h' | h') <;> linarith⟩
  · rcases Nat.mod_two_eq_zero_or_one n with heven | hodd
    · exact ⟨n, by linarith, h.le, fun _ => heven⟩
    · exact ⟨n + 1, by push_cast; linarith, by push_cast; linarith, fun _ => by omega⟩
  · refine ⟨n + 1, by push_cast; linarith, by push_cast; linarith, ?_⟩
    rintro (h' | h') <;> push_cast at h' <;> linarith

/-- What rounds to a significand in units of its last place is near the float, if the significand has all of its
digits. -/
theorem nearby_of_roundsTo (hr : RoundsTo (q / 2 ^ E) S) (hlong : -1074 < E → 2 ^ 52 ≤ q / 2 ^ E) :
    Nearby S E q := by
  have hpow : (0 : ℚ) < 2 ^ E := by positivity
  have hscale : q = q / 2 ^ E * 2 ^ E := (div_mul_cancel₀ q hpow.ne').symm
  obtain ⟨hlower, hupper, heven⟩ := hr
  generalize q / 2 ^ E = r at *
  by_cases hpower : S = 2 ^ 52 ∧ -1074 < E
  · obtain ⟨rfl, hleast⟩ := hpower
    have hself := (halfBelow_pos_le (2 ^ 52) E).1
    have hr := hlong hleast
    refine ⟨?_, ?_, fun _ => by norm_num⟩
    · generalize halfBelow (2 ^ 52) E = half at *
      rw [hscale]
      gcongr
      push_cast
      linarith
    · rw [hscale]
      gcongr
  · have hhalf : halfBelow S E = 1 / 2 := if_neg hpower
    refine ⟨?_, ?_, ?_⟩
    · rw [hscale, hhalf]
      gcongr
    · rw [hscale]
      gcongr
    · rw [hscale, hhalf, mul_left_inj' hpow.ne', mul_left_inj' hpow.ne']
      exact heven

/-- What rounds to a significand with one digit too many is near a power of two. -/
theorem nearby_of_carry (hr : RoundsTo (q / 2 ^ E) (2 ^ 53)) (hlt : q / 2 ^ E < 2 ^ 53) (hE : -1074 ≤ E) :
    Nearby (2 ^ 52) (E + 1) q := by
  have hpow : (0 : ℚ) < 2 ^ E := by positivity
  have hscale : q = q / 2 ^ E * 2 ^ E := (div_mul_cancel₀ q hpow.ne').symm
  have hhalf : halfBelow (2 ^ 52) (E + 1) = 1 / 4 := if_pos ⟨rfl, by omega⟩
  have hdouble : (2 : ℚ) ^ (E + 1) = 2 * 2 ^ E := by rw [zpow_add_one₀ two_ne_zero, mul_comm]
  have hlower := hr.lower
  push_cast at hlower
  refine ⟨?_, ?_, fun _ => by norm_num⟩
  · rw [hhalf, hdouble, hscale, ← mul_assoc]
    gcongr
    push_cast
    linarith
  · rw [hdouble, hscale, ← mul_assoc]
    gcongr
    push_cast
    linarith

/-- There is a float near every number. -/
theorem exists_nearby (hq : 0 ≤ q) : ∃ S E, Canonical S E ∧ Nearby S E q := by
  rcases hq.eq_or_lt with rfl | hpos
  · exact ⟨0, -1074, ⟨by norm_num, le_rfl, .inr rfl⟩,
      nearby_of_roundsTo ⟨by norm_num, by norm_num, fun _ => rfl⟩ fun h => absurd h (lt_irrefl _)⟩
  have hself : (2 : ℚ) ^ Int.log 2 q ≤ q := Int.zpow_log_le_self one_lt_two hpos
  have hnext : q < (2 : ℚ) ^ (Int.log 2 q + 1) := Int.lt_zpow_succ_log_self one_lt_two q
  -- The exponent with which the significand has all of its digits, or the least one.
  generalize hE : max (Int.log 2 q - 52) (-1074) = E
  have hpow : (0 : ℚ) < 2 ^ E := by positivity
  have hlt : q / 2 ^ E < 2 ^ 53 := by
    rw [div_lt_iff₀ hpow]
    calc q < (2 : ℚ) ^ (Int.log 2 q + 1) := hnext
      _ ≤ 2 ^ (((53 : Nat) : Int) + E) := zpow_le_zpow_right₀ one_le_two (by omega)
      _ = 2 ^ 53 * 2 ^ E := by rw [zpow_add₀ two_ne_zero, zpow_natCast]
  have hlong : -1074 < E → 2 ^ 52 ≤ q / 2 ^ E := by
    intro hleast
    rw [le_div_iff₀ hpow]
    calc (2 : ℚ) ^ 52 * 2 ^ E = 2 ^ (((52 : Nat) : Int) + E) := by rw [zpow_add₀ two_ne_zero, zpow_natCast]
      _ ≤ 2 ^ Int.log 2 q := zpow_le_zpow_right₀ one_le_two (by omega)
      _ ≤ q := hself
  obtain ⟨n, hn⟩ := exists_roundsTo (div_nonneg hq hpow.le)
  have hlower := hn.lower
  have hupper := hn.upper
  have hle : n < 2 ^ 53 + 1 := by exact_mod_cast (by linarith : (n : ℚ) < 2 ^ 53 + 1)
  rcases (Nat.le_of_lt_succ hle).eq_or_lt with rfl | hle
  · exact ⟨2 ^ 52, E + 1, ⟨by norm_num, by omega, .inl le_rfl⟩, nearby_of_carry hn hlt (by omega)⟩
  · refine ⟨n, E, ⟨hle, by omega, ?_⟩, nearby_of_roundsTo hn hlong⟩
    by_cases hleast : E = -1074
    · exact .inr hleast
    · have hr := hlong (by omega)
      have : 2 ^ 52 < n + 1 := by exact_mod_cast (by linarith : (2 : ℚ) ^ 52 < n + 1)
      exact .inl (by omega)

/-- Half a unit of the last place above the largest float, `2 ^ 1024 - 2 ^ 970`. -/
def floatLimit : ℚ := (2 ^ 53 - 1 / 2) * 2 ^ (971 : Int)

/-- The powers of two that are floats are below it. -/
theorem two_pow_lt_floatLimit {j : Int} (hj : j ≤ 1023) : (2 : ℚ) ^ j < floatLimit := by
  unfold floatLimit
  calc (2 : ℚ) ^ j ≤ 2 ^ (52 + 971 : Int) := zpow_le_zpow_right₀ one_le_two (by omega)
    _ = 2 ^ (52 : Int) * 2 ^ (971 : Int) := zpow_add₀ two_ne_zero ..
    _ < (2 ^ 53 - 1 / 2) * 2 ^ (971 : Int) := by gcongr; norm_num

/-- From the limit on the exponent is too large for a finite float. -/
theorem Nearby.overflow_iff (hc : Canonical S E) (hq : Nearby S E q) : 972 ≤ E ↔ floatLimit ≤ q := by
  unfold floatLimit
  constructor
  · intro hE
    have hS : (2 : ℚ) ^ 53 - 1 / 2 ≤ 2 * (S - halfBelow S E) := by
      have hnormal : 2 ^ 52 ≤ S := hc.normal.resolve_right (by omega)
      rcases hnormal.eq_or_lt with rfl | hlarger
      · have hhalf : halfBelow (2 ^ 52) E = 1 / 4 := if_pos ⟨rfl, by omega⟩
        rw [hhalf]
        norm_num
      · have hlarger' : (2 : ℚ) ^ 52 + 1 ≤ S := by exact_mod_cast hlarger
        obtain ⟨-, hhalf⟩ := halfBelow_pos_le S E
        linarith
    have hdouble : (2 : ℚ) ^ E = 2 * 2 ^ (E - 1) := by
      rw [← zpow_one_add₀ two_ne_zero]
      congr 1
      omega
    calc (2 ^ 53 - 1 / 2) * (2 : ℚ) ^ (971 : Int) ≤ (2 ^ 53 - 1 / 2) * 2 ^ (E - 1) := by
          gcongr
          · norm_num
          · omega
      _ ≤ 2 * (S - halfBelow S E) * 2 ^ (E - 1) := by gcongr
      _ = (S - halfBelow S E) * 2 ^ E := by rw [hdouble]; ring
      _ ≤ q := hq.lower
  · intro hle
    by_contra hE
    have hmost : (S + 1 / 2 : ℚ) * 2 ^ E ≤ (S + 1 / 2) * 2 ^ (971 : Int) := by
      gcongr
      · exact one_le_two
      · omega
    have hpow : (0 : ℚ) < 2 ^ (971 : Int) := zpow_pos two_pos 971
    generalize (2 : ℚ) ^ (971 : Int) = last at *
    -- Only the end of the interval of the largest float could be as large, but that float is odd.
    have hS : (2 : ℚ) ^ 53 - 1 / 2 ≤ S + 1 / 2 :=
      le_of_mul_le_mul_right ((hle.trans hq.upper).trans hmost) hpow
    have hlargest : S + 1 = 2 ^ 53 :=
      le_antisymm hc.lt (by exact_mod_cast (by linarith : (2 : ℚ) ^ 53 ≤ S + 1))
    have hlast : (S : ℚ) + 1 / 2 = 2 ^ 53 - 1 / 2 := by
      have hcast : (S : ℚ) + 1 = 2 ^ 53 := by exact_mod_cast hlargest
      linarith
    have hend : q = (S + 1 / 2) * 2 ^ E := by
      rw [← hlast] at hle
      exact le_antisymm hq.upper (hmost.trans hle)
    have heven := hq.even (.inr hend)
    omega

end

end Attest.Decimal
