import Attest.Eval.Number
import Attest.Proofs.Conversion
/-!
# The float nearest to an integer

A float keeps fifty-three binary digits, so the float nearest to an integer stands for the integer rounded to as
many digits, half way to the even one (`standsFor_floatOfInt`). Rounding keeps the order and leaves integers of up to
`2 ^ 53` as they are. Floats are compared like the numbers that they stand for (`StandsFor.compare_eq`).
-/

namespace Attest.Decimal

open Float.Model Float.Model.UnpackedFloat

/-! ## Rounding whole numbers -/

/-- How many steps make up a number, to the nearest step, and half way between two to the even one. -/
def nearestMultiple (step m : Nat) : Nat :=
  if 2 * (m % step) < step ∨ 2 * (m % step) = step ∧ m / step % 2 = 0 then m / step else m / step + 1

/-- What the last of fifty-three binary digits of a number counts, or one if it has fewer. -/
def lastStep (m : Nat) : Nat := 2 ^ (m.log2 - 52)

/-- A whole number rounded to fifty-three binary digits. -/
def nearestWhole (m : Nat) : Nat := nearestMultiple (lastStep m) m * lastStep m

/-- An integer rounded to fifty-three binary digits. -/
def nearestInt (n : Int) : Int := n.sign * nearestWhole n.natAbs

section

variable {step m n : Nat}

theorem nearestMultiple_cases (step m : Nat) :
    nearestMultiple step m = m / step ∨ nearestMultiple step m = m / step + 1 := by
  unfold nearestMultiple
  split
  · exact .inl rfl
  · exact .inr rfl

theorem nearestMultiple_mono (h : m ≤ n) : nearestMultiple step m ≤ nearestMultiple step n := by
  have hdiv : m / step ≤ n / step := Nat.div_le_div_right h
  rcases hdiv.lt_or_eq with hlt | heq
  · have hm := nearestMultiple_cases step m
    have hn := nearestMultiple_cases step n
    omega
  · -- As many whole steps, so the rest decides.
    have hm := Nat.div_add_mod m step
    have hn := Nat.div_add_mod n step
    rw [heq] at hm
    unfold nearestMultiple
    rw [heq]
    split <;> split <;> omega

theorem roundsTo_nearestMultiple (hstep : 0 < step) (m : Nat) : RoundsTo (m / step : ℚ) (nearestMultiple step m) := by
  have hpos : (0 : ℚ) < step := by exact_mod_cast hstep
  have hdiv : (m : ℚ) = step * (m / step : Nat) + (m % step : Nat) := by exact_mod_cast (Nat.div_add_mod m step).symm
  have hquot : (m / step : ℚ) = (m / step : Nat) + (m % step : Nat) / step := by
    rw [hdiv, add_div, mul_div_cancel_left₀ _ hpos.ne']
  have hhalf : (m % step : Nat) / (step : ℚ) = 1 / 2 ↔ 2 * (m % step) = step := by
    rw [div_eq_div_iff hpos.ne' two_ne_zero, one_mul, mul_comm]
    exact_mod_cast Iff.rfl
  have hnonneg : (0 : ℚ) ≤ (m % step : Nat) / step := by positivity
  have hlt : (m % step : Nat) / (step : ℚ) < 1 := (div_lt_one hpos).2 (by exact_mod_cast Nat.mod_lt m hstep)
  rw [hquot]
  generalize hf : (m % step : Nat) / (step : ℚ) = f at *
  unfold nearestMultiple
  split
  · next h =>
    have hle : f ≤ 1 / 2 := by
      rw [← hf, div_le_div_iff₀ hpos two_pos]
      exact_mod_cast (by omega : m % step * 2 ≤ 1 * step)
    refine ⟨by linarith, by linarith, ?_⟩
    rintro (heq | heq)
    · linarith
    · have hend := hhalf.1 (by linarith)
      omega
  · next h =>
    have hle : 1 / 2 ≤ f := by
      rw [← hf, div_le_div_iff₀ two_pos hpos]
      exact_mod_cast (by omega : 1 * step ≤ m % step * 2)
    refine ⟨by push_cast; linarith, by push_cast; linarith, ?_⟩
    rintro (heq | heq) <;> push_cast at heq
    · have hend := hhalf.1 (by linarith)
      omega
    · linarith

theorem lastStep_pos (m : Nat) : 0 < lastStep m := Nat.two_pow_pos _

theorem lastStep_of_log2_le (h : m.log2 ≤ 52) : lastStep m = 1 := by
  rw [lastStep, Nat.sub_eq_zero_of_le h, Nat.pow_zero]

/-- A number with more digits has fifty-three of them in front of the last step. -/
theorem div_lastStep (h : 52 ≤ m.log2) : 2 ^ 52 ≤ m / lastStep m ∧ m / lastStep m < 2 ^ 53 := by
  have hm : m ≠ 0 := by
    rintro rfl
    rw [Nat.log2_zero] at h
    omega
  have hlow : 2 ^ 52 * lastStep m = 2 ^ m.log2 := by
    rw [lastStep, ← Nat.pow_add, Nat.add_sub_cancel' h]
  have hhigh : lastStep m * 2 ^ 53 = 2 ^ (m.log2 + 1) := by
    rw [Nat.mul_comm, Nat.pow_succ, Nat.mul_right_comm, hlow, Nat.pow_succ]
  refine ⟨(Nat.le_div_iff_mul_le (lastStep_pos m)).2 ?_, Nat.div_lt_of_lt_mul ?_⟩
  · rw [hlow]
    exact Nat.log2_self_le hm
  · rw [hhigh]
    exact Nat.lt_log2_self

theorem nearestWhole_of_log2_le (h : m.log2 ≤ 52) : nearestWhole m = m := by
  rw [nearestWhole, lastStep_of_log2_le h, nearestMultiple, Nat.mod_one, if_pos (.inl (by decide)), Nat.div_one,
    Nat.mul_one]

theorem nearestWhole_of_le (h : m ≤ 2 ^ 53) : nearestWhole m = m := by
  rcases h.lt_or_eq with hlt | rfl
  · rcases Nat.eq_zero_or_pos m with rfl | hpos
    · rfl
    · have := (Nat.log2_lt hpos.ne').2 hlt
      exact nearestWhole_of_log2_le (by omega)
  · decide +kernel

/-- Rounding stays between the powers of two around a number. -/
theorem nearestWhole_bounds (hm : 0 < m) : 2 ^ m.log2 ≤ nearestWhole m ∧ nearestWhole m ≤ 2 ^ (m.log2 + 1) := by
  rcases Nat.le_total m.log2 52 with h | h
  · rw [nearestWhole_of_log2_le h]
    exact ⟨Nat.log2_self_le hm.ne', Nat.lt_log2_self.le⟩
  · obtain ⟨hlow, hhigh⟩ := div_lastStep h
    have hcases := nearestMultiple_cases (lastStep m) m
    unfold nearestWhole
    constructor
    · calc 2 ^ m.log2 = 2 ^ 52 * lastStep m := by rw [lastStep, ← Nat.pow_add, Nat.add_sub_cancel' h]
        _ ≤ nearestMultiple (lastStep m) m * lastStep m := Nat.mul_le_mul_right _ (by omega)
    · calc nearestMultiple (lastStep m) m * lastStep m ≤ 2 ^ 53 * lastStep m := Nat.mul_le_mul_right _ (by omega)
        _ = 2 ^ (m.log2 + 1) := by rw [lastStep, ← Nat.pow_add]; congr 1; omega

theorem nearestWhole_mono (h : m ≤ n) : nearestWhole m ≤ nearestWhole n := by
  rcases Nat.eq_zero_or_pos m with rfl | hm
  · exact Nat.zero_le _
  have hn : 0 < n := hm.trans_le h
  have hlog : m.log2 ≤ n.log2 := (Nat.le_log2 hn.ne').2 ((Nat.log2_self_le hm.ne').trans h)
  rcases hlog.lt_or_eq with hlt | heq
  · calc nearestWhole m ≤ 2 ^ (m.log2 + 1) := (nearestWhole_bounds hm).2
      _ ≤ 2 ^ n.log2 := Nat.pow_le_pow_right two_pos hlt
      _ ≤ nearestWhole n := (nearestWhole_bounds hn).1
  · have hstep : lastStep m = lastStep n := by rw [lastStep, lastStep, heq]
    rw [nearestWhole, nearestWhole, hstep]
    exact Nat.mul_le_mul_right _ (nearestMultiple_mono h)

end

theorem nearestInt_neg (n : Int) : nearestInt (-n) = -nearestInt n := by
  rw [nearestInt, nearestInt, Int.sign_neg, Int.natAbs_neg, Int.neg_mul]

theorem nearestInt_natCast (m : Nat) : nearestInt m = nearestWhole m := by
  rcases Nat.eq_zero_or_pos m with rfl | hm
  · rfl
  · rw [nearestInt, Int.sign_eq_one_of_pos (by exact_mod_cast hm), Int.one_mul, Int.natAbs_natCast]

theorem nearestInt_of_natAbs_le {n : Int} (h : n.natAbs ≤ 2 ^ 53) : nearestInt n = n := by
  rw [nearestInt, nearestWhole_of_le h, Int.sign_mul_natAbs]

/-- Rounding keeps the order. -/
theorem nearestInt_mono {a b : Int} (h : a ≤ b) : nearestInt a ≤ nearestInt b := by
  have hnonneg : ∀ m : Nat, 0 ≤ nearestInt m := fun m => by
    rw [nearestInt_natCast]
    exact Int.natCast_nonneg _
  rcases Int.le_total 0 a with ha | ha
  · obtain ⟨m, rfl⟩ := Int.eq_ofNat_of_zero_le ha
    obtain ⟨n, rfl⟩ := Int.eq_ofNat_of_zero_le (ha.trans h)
    rw [nearestInt_natCast, nearestInt_natCast]
    exact_mod_cast nearestWhole_mono (by exact_mod_cast h)
  obtain ⟨m, hm⟩ := Int.exists_eq_neg_ofNat ha
  rcases Int.le_total 0 b with hb | hb
  · obtain ⟨n, rfl⟩ := Int.eq_ofNat_of_zero_le hb
    have hleft := hnonneg m
    have hright := hnonneg n
    rw [hm, nearestInt_neg]
    omega
  · obtain ⟨n, hn⟩ := Int.exists_eq_neg_ofNat hb
    have hle : nearestWhole n ≤ nearestWhole m := nearestWhole_mono (by omega)
    rw [hm, hn, nearestInt_neg, nearestInt_neg, nearestInt_natCast, nearestInt_natCast]
    omega

/-! ## The numbers that floats stand for -/

/-- A number with a sign. -/
def withSign : Sign → ℚ → ℚ
  | .positive, q => q
  | .negative, q => -q

/-- A finite float that stands for a number. -/
def StandsFor (x : Float) (q : ℚ) : Prop :=
  ∃ s S E, Canonical S E ∧ E ≤ 971 ∧ x = ofParts s S E ∧ q = withSign s (S * 2 ^ E)

section

variable {S S' : Nat} {E E' : Int}

/-- The exponent of the last place decides first. -/
theorem Canonical.value_lt (hc : Canonical S E) (hc' : Canonical S' E') (h : E < E') :
    (S * 2 ^ E : ℚ) < S' * 2 ^ E' := by
  have hlong : 2 ^ 52 ≤ S' := hc'.normal.resolve_right (by have := hc.least; omega)
  have hS : (S : ℚ) < 2 ^ 53 := by exact_mod_cast hc.lt
  have hS' : (2 : ℚ) ^ 52 ≤ S' := by exact_mod_cast hlong
  calc (S * 2 ^ E : ℚ) < 2 ^ 53 * 2 ^ E := by gcongr
    _ = 2 ^ 52 * 2 ^ (E + 1) := by rw [zpow_add_one₀ two_ne_zero]; ring
    _ ≤ 2 ^ 52 * 2 ^ E' := by
      gcongr
      · exact one_le_two
      · omega
    _ ≤ S' * 2 ^ E' := by gcongr

theorem Canonical.compare_parts (hc : Canonical S E) (hc' : Canonical S' E') :
    (compare E E').then (compare S S') = compare (S * 2 ^ E : ℚ) (S' * 2 ^ E') := by
  rcases lt_trichotomy E E' with h | rfl | h
  · rw [compare_lt_iff_lt.2 h, compare_lt_iff_lt.2 (hc.value_lt hc' h)]
    rfl
  · have hpow : (0 : ℚ) < 2 ^ E := by positivity
    rw [compare_eq_iff_eq.2 rfl, Ordering.eq_then]
    rcases lt_trichotomy S S' with hS | rfl | hS
    · have hlt : (S * 2 ^ E : ℚ) < S' * 2 ^ E := by gcongr
      rw [compare_lt_iff_lt.2 hS, compare_lt_iff_lt.2 hlt]
    · rw [compare_eq_iff_eq.2 rfl, compare_eq_iff_eq.2 rfl]
    · have hlt : (S' * 2 ^ E : ℚ) < S * 2 ^ E := by gcongr
      rw [compare_gt_iff_gt.2 hS, compare_gt_iff_gt.2 hlt]
  · rw [compare_gt_iff_gt.2 h, compare_gt_iff_gt.2 (hc'.value_lt hc h)]
    rfl

theorem compare_neg (p q : ℚ) : compare (-p) (-q) = compare q p := by
  rw [LinearOrder.compare_eq_compareOfLessAndEq, LinearOrder.compare_eq_compareOfLessAndEq]
  unfold compareOfLessAndEq
  simp only [neg_lt_neg_iff, neg_inj, eq_comm]

/-- Unpacked floats are compared like the numbers that they stand for. -/
theorem Canonical.compare_unpacked (hc : Canonical S E) (hc' : Canonical S' E') (s s' : Sign) :
    (unpacked s S E).compare (unpacked s' S' E') =
      some (compare (withSign s (S * 2 ^ E)) (withSign s' (S' * 2 ^ E'))) := by
  rcases Nat.eq_zero_or_pos S with rfl | hS <;> rcases Nat.eq_zero_or_pos S' with rfl | hS'
  · have hzero : withSign s ((0 : Nat) * 2 ^ E) = withSign s' ((0 : Nat) * 2 ^ E') := by
      cases s <;> cases s' <;> simp [withSign]
    rw [compare_eq_iff_eq.2 hzero]
    rfl
  · -- Zero against a float with a sign.
    have hvalue : (0 : ℚ) < S' * 2 ^ E' := by positivity
    rw [unpacked_of_pos s' hS']
    cases s'
    · rw [compare_gt_iff_gt.2 (by cases s <;> simp [withSign, hvalue])]
      rfl
    · rw [compare_lt_iff_lt.2 (by cases s <;> simp [withSign, hvalue])]
      rfl
  · have hvalue : (0 : ℚ) < S * 2 ^ E := by positivity
    rw [unpacked_of_pos s hS]
    cases s
    · rw [compare_lt_iff_lt.2 (by cases s' <;> simp [withSign, hvalue])]
      rfl
    · rw [compare_gt_iff_gt.2 (by cases s' <;> simp [withSign, hvalue])]
      rfl
  · have hvalue : (0 : ℚ) < S * 2 ^ E := by positivity
    have hvalue' : (0 : ℚ) < S' * 2 ^ E' := by positivity
    rw [unpacked_of_pos s hS, unpacked_of_pos s' hS']
    cases s <;> cases s' <;> simp only [withSign]
    · rw [compare_neg, Std.OrientedOrd.eq_swap (a := (S' * 2 ^ E' : ℚ)), ← hc.compare_parts hc']
      rfl
    · rw [compare_lt_iff_lt.2 (show -(S * 2 ^ E : ℚ) < S' * 2 ^ E' by linarith)]
      rfl
    · rw [compare_gt_iff_gt.2 (show -(S' * 2 ^ E' : ℚ) < S * 2 ^ E by linarith)]
      rfl
    · exact congrArg some (hc.compare_parts hc')

end

namespace StandsFor

variable {x y : Float} {p q : ℚ}

/-- Floats are compared like the numbers that they stand for. -/
theorem compare_eq (hx : StandsFor x p) (hy : StandsFor y q) :
    x.toModel.unpack.compare y.toModel.unpack = some (compare p q) := by
  obtain ⟨s, S, E, hc, hE, rfl, rfl⟩ := hx
  obtain ⟨s', S', E', hc', hE', rfl, rfl⟩ := hy
  show (Float.Model.pack (unpacked s S E)).unpack.compare (Float.Model.pack (unpacked s' S' E')).unpack = _
  rw [hc.unpack_pack hE, hc'.unpack_pack hE', hc.compare_unpacked hc']

theorem lt_iff (hx : StandsFor x p) (hy : StandsFor y q) : x < y ↔ p < q := by
  have hlt : x < y ↔ (x.toModel.unpack.compare y.toModel.unpack == some .lt) = true := by
    show decide (x.toModel < y.toModel) = true ↔ _
    exact decide_eq_true_iff
  rw [hlt, hx.compare_eq hy, beq_iff_eq, Option.some.injEq, compare_lt_iff_lt]

theorem le_iff (hx : StandsFor x p) (hy : StandsFor y q) : x ≤ y ↔ p ≤ q := by
  have hle : x ≤ y ↔ (x.toModel.unpack.compare y.toModel.unpack).any Ordering.isLE = true := by
    show decide (x.toModel ≤ y.toModel) = true ↔ _
    exact decide_eq_true_iff
  rw [hle, hx.compare_eq hy, Option.any_some, Std.LawfulBCmp.isLE_iff_le]

theorem beq_iff (hx : StandsFor x p) (hy : StandsFor y q) : (x == y) = true ↔ p = q := by
  show (x.toModel.unpack.compare y.toModel.unpack == some .eq) = true ↔ _
  rw [hx.compare_eq hy, beq_iff_eq, Option.some.injEq, compare_eq_iff_eq]

end StandsFor

/-! ## From integers to floats -/

/-- What a significand and its exponent stand for is near to them. -/
theorem nearby_self (S : Nat) (E : Int) : Nearby S E (S * 2 ^ E) := by
  have hpow : (0 : ℚ) < 2 ^ E := by positivity
  obtain ⟨hhalf, -⟩ := halfBelow_pos_le S E
  have hlower : (S - halfBelow S E) * 2 ^ E < (S * 2 ^ E : ℚ) := by gcongr; linarith
  have hupper : (S * 2 ^ E : ℚ) < (S + 1 / 2) * 2 ^ E := by gcongr; linarith
  refine ⟨hlower.le, hupper.le, ?_⟩
  rintro (h | h)
  · exact absurd h hlower.ne'
  · exact absurd h hupper.ne

/-- A whole number that is not too large is near to a float that stands for the number rounded. -/
theorem exists_nearby_whole {m : Nat} (hm : 0 < m) (hlog : m.log2 ≤ 1022) :
    ∃ S E, Canonical S E ∧ E ≤ 971 ∧ Nearby S E m ∧ (S * 2 ^ E : ℚ) = nearestWhole m := by
  rcases Nat.lt_or_ge m (2 ^ 53) with hlt | hge
  · have hnormal := normal_whole hm hlt
    have hvalue := wholeSignificand_mul m
    have hnear := nearby_self (wholeSignificand m) (wholeLastPlace m)
    rw [hvalue] at hnear
    refine ⟨_, _, hnormal.canonical, hnormal.most, hnear, ?_⟩
    rw [hvalue, nearestWhole_of_le hlt.le]
  have hlong : 52 ≤ m.log2 := (Nat.le_log2 hm.ne').2 (by omega)
  obtain ⟨hlow, hhigh⟩ := div_lastStep hlong
  -- The exponent of the last place is that of the last step.
  obtain ⟨k, hk⟩ : ∃ k, m.log2 = 52 + k := ⟨m.log2 - 52, by omega⟩
  have hstep : lastStep m = 2 ^ k := by rw [lastStep, hk, Nat.add_sub_cancel_left]
  have hpow : (lastStep m : ℚ) = 2 ^ (k : Int) := by
    rw [hstep, zpow_natCast]
    push_cast
    rfl
  have hvalue : (nearestWhole m : ℚ) = nearestMultiple (lastStep m) m * 2 ^ (k : Int) := by
    rw [nearestWhole, Nat.cast_mul, hpow]
  have hlow' : (2 : ℚ) ^ 52 ≤ m / 2 ^ (k : Int) := by
    rw [← hpow]
    exact le_trans (by exact_mod_cast hlow) Nat.cast_div_le
  have hhigh' : (m / 2 ^ (k : Int) : ℚ) < 2 ^ 53 := by
    have hlt : m < 2 ^ 53 * lastStep m := (Nat.div_lt_iff_lt_mul (lastStep_pos m)).1 hhigh
    rw [← hpow, div_lt_iff₀ (by exact_mod_cast lastStep_pos m)]
    exact_mod_cast hlt
  have hround := roundsTo_nearestMultiple (lastStep_pos m) m
  have hcases := nearestMultiple_cases (lastStep m) m
  rw [hpow] at hround
  rw [hvalue]
  generalize nearestMultiple (lastStep m) m = n at *
  have hn : n < 2 ^ 53 ∨ n = 2 ^ 53 := by omega
  rcases hn with hn | rfl
  · exact ⟨n, k, ⟨hn, by omega, .inl (by omega)⟩, by omega, nearby_of_roundsTo hround fun _ => hlow', rfl⟩
  · refine ⟨2 ^ 52, k + 1, ⟨by norm_num, by omega, .inl le_rfl⟩, by omega,
      nearby_of_carry hround hhigh' (by omega), ?_⟩
    rw [zpow_add_one₀ two_ne_zero]
    push_cast
    ring

/-- A whole number of up to sixty-four binary digits is converted to a float that stands for the number rounded. -/
theorem exists_ofNat_eq {m : Nat} (hlt : m < 2 ^ 64) : ∃ S E, Canonical S E ∧ E ≤ 971 ∧
    Float.ofNat m = ofParts .positive S E ∧ (S * 2 ^ E : ℚ) = nearestWhole m := by
  rcases Nat.eq_zero_or_pos m with rfl | hm
  · refine ⟨0, -1074, ⟨by norm_num, le_rfl, .inr rfl⟩, by norm_num, ?_, ?_⟩
    · rw [ofParts_zero]
      rfl
    · rw [nearestWhole_of_le (Nat.zero_le _), Nat.cast_zero, zero_mul]
  have hlog : m.log2 < 64 := (Nat.log2_lt hm.ne').2 hlt
  obtain ⟨S, E, hc, hE, hnear, hvalue⟩ := exists_nearby_whole hm (by omega)
  refine ⟨S, E, hc, hE, ?_, hvalue⟩
  have hdigits := digitCount_le_log2 m
  have hnear' : Nearby S E (m * 10 ^ (0 : Int)) := by rwa [zpow_zero, mul_one]
  exact ofScientific_eq_of_nearby hm (by omega) (by omega) hc hnear'

/-- The float nearest to an integer stands for the integer rounded to fifty-three binary digits. -/
theorem standsFor_floatOfInt (n : Int64) : StandsFor (floatOfInt n) (nearestInt n.toInt) := by
  have hlt := n.toInt_lt
  have hge := n.le_toInt
  unfold floatOfInt
  generalize n.toInt = N at *
  cases N with
  | ofNat m =>
    rw [Int.ofNat_eq_natCast] at hlt
    obtain ⟨S, E, hc, hE, hfloat, hvalue⟩ := exists_ofNat_eq (m := m) (by omega)
    refine ⟨.positive, S, E, hc, hE, hfloat, ?_⟩
    rw [Int.ofNat_eq_natCast, nearestInt_natCast, withSign, hvalue]
    rfl
  | negSucc m =>
    obtain ⟨S, E, hc, hE, hfloat, hvalue⟩ := exists_ofNat_eq (m := m + 1) (by omega)
    refine ⟨.negative, S, E, hc, hE, ?_, ?_⟩
    · exact (congrArg Float.neg hfloat).trans (hc.neg_ofParts .positive)
    · rw [Int.negSucc_eq, ← Nat.cast_succ, nearestInt_neg, nearestInt_natCast, withSign, hvalue]
      push_cast
      rfl

theorem standsFor_zero : StandsFor 0.0 0 := by
  refine ⟨.positive, 0, -1074, ⟨by norm_num, le_rfl, .inr rfl⟩, by norm_num, (ofParts_zero _).symm, ?_⟩
  rw [withSign, Nat.cast_zero, zero_mul]

theorem nearestInt_eq_zero_iff {n : Int} : nearestInt n = 0 ↔ n = 0 := by
  have hzero : nearestInt 0 = 0 := nearestInt_of_natAbs_le (by decide)
  refine ⟨fun h => ?_, fun h => h ▸ hzero⟩
  have hone : nearestInt 1 = 1 := nearestInt_of_natAbs_le (by decide)
  have hminus : nearestInt (-1) = -1 := nearestInt_of_natAbs_le (by decide)
  rcases lt_trichotomy n 0 with hlt | heq | hgt
  · have hle : nearestInt n ≤ nearestInt (-1) := nearestInt_mono (by omega)
    omega
  · exact heq
  · have hge : nearestInt 1 ≤ nearestInt n := nearestInt_mono (by omega)
    omega

/-- No integer but zero is nearest to the float zero. -/
theorem floatOfInt_beq_zero {n : Int64} : (floatOfInt n == 0.0) = true ↔ n = 0 := by
  have hzero : (nearestInt n.toInt : ℚ) = 0 ↔ nearestInt n.toInt = 0 := Int.cast_eq_zero
  rw [(standsFor_floatOfInt n).beq_iff standsFor_zero, hzero, nearestInt_eq_zero_iff]
  exact Int64.toInt_inj (y := 0)

end Attest.Decimal
