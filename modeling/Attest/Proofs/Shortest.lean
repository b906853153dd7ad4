import Attest.Proofs.Conversion
/-!
# The shortest decimal of a float

The decimal that is found for a float is one of those that round to it (`nearby_shortest`), so it reads back
as the float. One is found, since among the decimals of seventeen digits there is one within half a unit of
their last digit, and so much nearer to the float than the next float is.
-/

namespace Attest.Decimal

variable {x : Float} {i : Interval} {k : Int} {c : Nat}

namespace Interval

/-! ## In units of a power of ten -/

theorem onGrid_unit_pos (h : 0 < i.unit) (k : Int) : 0 < (i.onGrid k).unit := by
  unfold onGrid
  split
  · exact Nat.mul_pos h (Nat.pow_pos (by decide))
  · exact h

/-- On a grid everything is measured in its unit. -/
theorem onGrid_div (i : Interval) (k : Int) :
    ((i.onGrid k).low / (i.onGrid k).unit : ℚ) = i.low / i.unit / 10 ^ k ∧
    ((i.onGrid k).value / (i.onGrid k).unit : ℚ) = i.value / i.unit / 10 ^ k ∧
    ((i.onGrid k).high / (i.onGrid k).unit : ℚ) = i.high / i.unit / 10 ^ k := by
  cases k with
  | ofNat up =>
    have hunit : (((i.onGrid (.ofNat up)).unit : Nat) : ℚ) = i.unit * 10 ^ up := by simp [onGrid]
    rw [hunit, Int.ofNat_eq_natCast, zpow_natCast, div_div, div_div, div_div]
    exact ⟨rfl, rfl, rfl⟩
  | negSucc n =>
    have hgrid : ∀ a : ℚ, a * 10 ^ (n + 1) / i.unit = a / i.unit / 10 ^ Int.negSucc n := by
      intro a
      rw [zpow_negSucc, div_inv_eq_mul, mul_div_right_comm]
    simp only [onGrid, Nat.pow_eq, Nat.cast_mul, Nat.cast_pow, Nat.cast_ofNat, hgrid]
    exact ⟨trivial, trivial, trivial⟩

/-- What lies strictly between the ends is in the interval. -/
theorem holds_of_lt (hu : 0 < i.unit) (hlow : (i.low / i.unit : ℚ) < c) (hhigh : (c : ℚ) < i.high / i.unit) :
    i.holds c = true := by
  have hunit : (0 : ℚ) < i.unit := by exact_mod_cast hu
  have h1 : i.low < c * i.unit := by exact_mod_cast (div_lt_iff₀ hunit).1 hlow
  have h2 : c * i.unit < i.high := by exact_mod_cast (lt_div_iff₀ hunit).1 hhigh
  unfold holds
  split <;> simp <;> omega

/-- What is in the interval lies between the ends, and is one of them only if these belong to it. -/
theorem of_holds (hu : 0 < i.unit) (h : i.holds c = true) :
    (i.low / i.unit : ℚ) ≤ c ∧ (c : ℚ) ≤ i.high / i.unit ∧
      ((c : ℚ) = i.low / i.unit ∨ (c : ℚ) = i.high / i.unit → i.closed = true) := by
  have hunit : (0 : ℚ) < i.unit := by exact_mod_cast hu
  unfold holds at h
  rw [div_le_iff₀ hunit, le_div_iff₀ hunit, eq_div_iff hunit.ne', eq_div_iff hunit.ne']
  split at h
  · next hclosed =>
    simp only [Bool.and_eq_true, decide_eq_true_eq] at h
    exact ⟨by exact_mod_cast h.1, by exact_mod_cast h.2, fun _ => hclosed⟩
  · simp only [Bool.and_eq_true, decide_eq_true_eq] at h
    refine ⟨by exact_mod_cast h.1.le, by exact_mod_cast h.2.le, ?_⟩
    rintro (heq | heq)
    · have : c * i.unit = i.low := by exact_mod_cast heq
      omega
    · have : c * i.unit = i.high := by exact_mod_cast heq
      omega

/-- What is found is in the interval. -/
theorem holds_of_nearest? (h : i.nearest? k = some c) : (i.onGrid k).holds c = true := by
  unfold nearest? at h
  dsimp only at h
  split at h
  · next h₀ h₁ =>
    split at h
    · cases h
      exact h₀
    · cases h
      exact h₁
  · next h₀ _ =>
    cases h
    exact h₀
  · next _ h₁ =>
    cases h
    exact h₁
  · cases h

/-- Where the ends are more than half a unit away, a multiple of the unit is found. -/
theorem nearest?_ne_none (hu : 0 < i.unit)
    (hlow : ((i.onGrid k).low / (i.onGrid k).unit : ℚ) < (i.onGrid k).value / (i.onGrid k).unit - 1 / 2)
    (hhigh : ((i.onGrid k).value / (i.onGrid k).unit + 1 / 2 : ℚ) < (i.onGrid k).high / (i.onGrid k).unit) :
    i.nearest? k ≠ none := by
  have hunit := onGrid_unit_pos hu k
  unfold nearest?
  dsimp only
  generalize i.onGrid k = g at *
  have hpos : (0 : ℚ) < g.unit := by exact_mod_cast hunit
  have hfloor : ((g.value / g.unit : Nat) : ℚ) ≤ g.value / g.unit := Nat.cast_div_le
  have hnext : (g.value / g.unit : ℚ) < (g.value / g.unit : Nat) + 1 := by
    rw [div_lt_iff₀ hpos]
    rw [mul_comm]
    exact_mod_cast Nat.lt_mul_div_succ g.value hunit
  -- The nearer one of the neighbours is within half a unit.
  by_cases hnear : (g.value / g.unit : ℚ) ≤ (g.value / g.unit : Nat) + 1 / 2
  · have hholds : g.holds (g.value / g.unit) = true := holds_of_lt hunit (by linarith) (by linarith)
    rw [hholds]
    cases g.holds (g.value / g.unit + 1) <;> exact Option.some_ne_none _
  · have hholds : g.holds (g.value / g.unit + 1) = true :=
      holds_of_lt hunit (by push_cast; linarith) (by push_cast; linarith)
    rw [hholds]
    cases g.holds (g.value / g.unit) <;> exact Option.some_ne_none _

/-- The value has at least as many digits before the point as its magnitude says. -/
theorem pow_magnitude_le (hu : 0 < i.unit) (hv : 0 < i.value) : (10 : ℚ) ^ (i.magnitude - 1) ≤ i.value / i.unit := by
  have hunit : (0 : ℚ) < i.unit := by exact_mod_cast hu
  unfold magnitude
  split
  · next h =>
    have hquot : 0 < i.value / i.unit := Nat.div_pos h hu
    have hcount : 0 < digitCount (i.value / i.unit) := Nat.length_toDigits_pos
    have hexp : (digitCount (i.value / i.unit) : Int) - 1 = (digitCount (i.value / i.unit) - 1 : Nat) := by omega
    rw [hexp, zpow_natCast]
    calc (10 : ℚ) ^ (digitCount (i.value / i.unit) - 1) ≤ (i.value / i.unit : Nat) := by
          exact_mod_cast pow_digitCount_le hquot
      _ ≤ i.value / i.unit := Nat.cast_div_le
  · dsimp only
    have hlt := lt_pow_digitCount ((i.unit - 1) / i.value)
    rw [Nat.div_lt_iff_lt_mul hv] at hlt
    have hle : (i.unit : ℚ) ≤ 10 ^ digitCount ((i.unit - 1) / i.value) * i.value := by
      exact_mod_cast (by omega : i.unit ≤ 10 ^ digitCount ((i.unit - 1) / i.value) * i.value)
    have hexp : (1 : Int) - (digitCount ((i.unit - 1) / i.value) : Int) - 1 =
        -(digitCount ((i.unit - 1) / i.value) : Int) := by omega
    rw [hexp, zpow_neg, zpow_natCast, le_div_iff₀ hunit, inv_mul_le_iff₀ (by positivity)]
    exact hle

end Interval

/-! ## The interval of a float -/

/-- A power of two with its sign split off is the quotient of the powers for the two signs. -/
theorem two_pow_sub_div (a b : Nat) : ((2 ^ (a - b) : Nat) / (2 ^ (b - a) : Nat) : ℚ) = 2 ^ ((a : Int) - b) := by
  rcases Nat.le_total a b with h | h
  · have hexp : (a : Int) - b = -((b - a : Nat) : Int) := by omega
    rw [hexp, zpow_neg, zpow_natCast, Nat.sub_eq_zero_of_le h]
    simp
  · have hexp : (a : Int) - b = ((a - b : Nat) : Int) := by omega
    rw [hexp, zpow_natCast, Nat.sub_eq_zero_of_le h]
    simp

section

variable (hx : 0 < significand x)

include hx

/-- The ends of the interval of a float are those of the numbers that round to it. -/
theorem Interval.ofFloat_eq :
    0 < (Interval.ofFloat x).unit ∧ 0 < (Interval.ofFloat x).value ∧
    ((Interval.ofFloat x).low / (Interval.ofFloat x).unit : ℚ) =
      (significand x - halfBelow (significand x) (lastPlace x)) * 2 ^ lastPlace x ∧
    ((Interval.ofFloat x).value / (Interval.ofFloat x).unit : ℚ) = significand x * 2 ^ lastPlace x ∧
    ((Interval.ofFloat x).high / (Interval.ofFloat x).unit : ℚ) = (significand x + 1 / 2) * 2 ^ lastPlace x ∧
    ((Interval.ofFloat x).closed = true → significand x % 2 = 0) := by
  generalize hshift : (if exponentField x = 0 then 1 else exponentField x) = shift
  generalize hbelow : (if fractionField x = 0 ∧ 1 < exponentField x then 1 else 2) = below
  have hi : Interval.ofFloat x = ⟨(4 * significand x - below) * 2 ^ (shift - 1077),
      4 * significand x * 2 ^ (shift - 1077), (4 * significand x + 2) * 2 ^ (shift - 1077), 2 ^ (1077 - shift),
      significand x % 2 = 0⟩ := by
    rw [← hshift, ← hbelow]
    rfl
  have hplace : lastPlace x = (shift : Int) - 1075 := by rw [lastPlace, hshift]
  have hscale : ((2 ^ (shift - 1077) : Nat) / (2 ^ (1077 - shift) : Nat) : ℚ) = 2 ^ lastPlace x / 4 := by
    have hexp : lastPlace x = (shift : Int) - (1077 : Nat) + 2 := by omega
    rw [two_pow_sub_div, hexp, zpow_add₀ two_ne_zero]
    norm_num
  have hbelow_le : below ≤ 4 * significand x := by
    rw [← hbelow]
    split <;> omega
  have hhalf : halfBelow (significand x) (lastPlace x) = below / 4 := by
    have hf := fractionField_lt x
    have hiff : significand x = 2 ^ 52 ∧ -1074 < lastPlace x ↔ fractionField x = 0 ∧ 1 < exponentField x := by
      rw [hplace, ← hshift]
      unfold significand
      split <;> omega
    rw [halfBelow, ← hbelow]
    by_cases hpower : fractionField x = 0 ∧ 1 < exponentField x
    · rw [if_pos (hiff.2 hpower), if_pos hpower]
      norm_num
    · rw [if_neg (hiff.not.2 hpower), if_neg hpower]
      norm_num
  rw [hi, hhalf]
  refine ⟨by positivity, by positivity, ?_, ?_, ?_, of_decide_eq_true⟩
  · dsimp only
    rw [Nat.cast_mul, Nat.cast_sub hbelow_le, mul_div_assoc, hscale]
    push_cast
    ring
  · dsimp only
    rw [Nat.cast_mul, mul_div_assoc, hscale]
    push_cast
    ring
  · dsimp only
    rw [Nat.cast_mul, mul_div_assoc, hscale]
    push_cast
    ring

/-- What is found for a float rounds to it. -/
theorem nearby_of_nearest? (hfound : (Interval.ofFloat x).nearest? k = some c) :
    Nearby (significand x) (lastPlace x) (c * 10 ^ k) := by
  obtain ⟨hunit, -, hlow, -, hhigh, heven⟩ := Interval.ofFloat_eq hx
  obtain ⟨hgridLow, -, hgridHigh⟩ := (Interval.ofFloat x).onGrid_div k
  have hpow : (0 : ℚ) < 10 ^ k := by positivity
  have hclosed : ((Interval.ofFloat x).onGrid k).closed = (Interval.ofFloat x).closed := by
    unfold Interval.onGrid
    split <;> rfl
  obtain ⟨hlower, hupper, hends⟩ :=
    Interval.of_holds (Interval.onGrid_unit_pos hunit k) (Interval.holds_of_nearest? hfound)
  rw [hgridLow, hlow] at hlower hends
  rw [hgridHigh, hhigh] at hupper hends
  rw [hclosed, eq_div_iff hpow.ne', eq_div_iff hpow.ne'] at hends
  exact ⟨(div_le_iff₀ hpow).1 hlower, (le_div_iff₀ hpow).1 hupper, fun hend => heven (hends hend)⟩

/-- With seventeen digits something is found for a float. -/
theorem nearest?_magnitude_ne_none :
    (Interval.ofFloat x).nearest? ((Interval.ofFloat x).magnitude - 17) ≠ none := by
  obtain ⟨hunit, hvalue, hlow, hself, hhigh, -⟩ := Interval.ofFloat_eq hx
  obtain ⟨hgridLow, hgridSelf, hgridHigh⟩ := (Interval.ofFloat x).onGrid_div ((Interval.ofFloat x).magnitude - 17)
  have hmagnitude := Interval.pow_magnitude_le hunit hvalue
  have hlt : (significand x : ℚ) ≤ 2 ^ 53 := by exact_mod_cast (canonical_significand x).lt.le
  -- How many units of the last of seventeen digits there are in the last place of the float.
  generalize hu : (2 : ℚ) ^ lastPlace x / 10 ^ ((Interval.ofFloat x).magnitude - 17) = u at *
  have hmeasure : ∀ a : ℚ, a * 2 ^ lastPlace x / 10 ^ ((Interval.ofFloat x).magnitude - 17) = a * u := by
    intro a
    rw [mul_div_assoc, hu]
  have hlarge : (10 : ℚ) ^ 16 ≤ significand x * u := by
    have hexp : ((16 : Nat) : Int) + ((Interval.ofFloat x).magnitude - 17) = (Interval.ofFloat x).magnitude - 1 := by
      omega
    rwa [← hmeasure, ← hself, le_div_iff₀ (by positivity), ← zpow_natCast, ← zpow_add₀ (by norm_num), hexp]
  have hpos : 0 < u := by rw [← hu]; positivity
  have hone : 1 < u := by
    have hbound : significand x * u ≤ 2 ^ 53 * u := by gcongr
    linarith
  have hhalf : 1 / 2 < halfBelow (significand x) (lastPlace x) * u := by
    unfold halfBelow
    split
    · next hpower =>
      rw [hpower.1] at hlarge
      push_cast at hlarge
      linarith
    · linarith
  refine Interval.nearest?_ne_none hunit ?_ ?_
  · rw [hgridLow, hgridSelf, hlow, hself, hmeasure, hmeasure]
    linarith
  · rw [hgridSelf, hgridHigh, hself, hhigh, hmeasure, hmeasure]
    linarith

/-- The shortest decimal of a float rounds to it. -/
theorem nearby_shortest :
    Nearby (significand x) (lastPlace x) ((shortest x).digits * 10 ^ (shortest x).exponent) := by
  unfold shortest
  dsimp only
  generalize hfound : (List.range 17).findSome? _ = found
  cases found with
  | none =>
    have hnone := List.findSome?_eq_none_iff.1 hfound 16 (by simp)
    exact absurd (Option.map_eq_none_iff.1 hnone) (nearest?_magnitude_ne_none hx)
  | some d =>
    obtain ⟨n, -, hn⟩ := List.exists_of_findSome?_eq_some hfound
    obtain ⟨c, hc, rfl⟩ := Option.map_eq_some_iff.1 hn
    exact nearby_of_nearest? hx hc

end

end Attest.Decimal
