import Attest.Decimal.Numeral
import Attest.Proofs.Significand
/-!
# From decimals to floats

A decimal is converted to the float that it is near to (`toFloat_eq_of_nearby`), whether by multiplying or
dividing by an exact power of ten or by exact arithmetic on its digits. What is beyond all floats becomes infinite,
and what is nearer to zero than to any other float becomes zero.
-/

namespace Attest.Decimal

open Float.Model Float.Model.UnpackedFloat

variable {S : Nat} {E : Int} {q : ℚ}

/-! ## Decimal digits -/

theorem lt_pow_digitCount (n : Nat) : n < 10 ^ digitCount n :=
  (Nat.length_toDigits_le_iff (by decide) Nat.length_toDigits_pos).1 le_rfl

theorem pow_digitCount_le {n : Nat} (hn : 0 < n) : 10 ^ (digitCount n - 1) ≤ n := by
  by_contra hlt
  rcases Nat.eq_zero_or_pos (digitCount n - 1) with h | h
  · rw [h] at hlt
    omega
  · have : digitCount n ≤ digitCount n - 1 := (Nat.length_toDigits_le_iff (by decide) h).2 (by omega)
    omega

theorem digitCount_le_log2 (n : Nat) : digitCount n ≤ n.log2 + 1 := by
  refine (Nat.length_toDigits_le_iff (by decide) (Nat.succ_pos _)).2 ?_
  calc n < 2 ^ (n.log2 + 1) := Nat.lt_log2_self
    _ ≤ 10 ^ (n.log2 + 1) := Nat.pow_le_pow_left (by decide) _

/-! ## Products and quotients -/

/-- A product near a float is that float. -/
theorem mul_eq_of_nearby (hc : Canonical S E) {m₁ m₂ : Nat} {e₁ e₂ : Int} (h₁ : 0 < m₁) (h₂ : 0 < m₂)
    (hq : Nearby S E (m₁ * 2 ^ e₁ * (m₂ * 2 ^ e₂))) (hlong : 2 ^ 52 ≤ m₁ * m₂) :
    UnpackedFloat.mul Format.binary64 (.finite .positive m₁ e₁ h₁) (.finite .positive m₂ e₂ h₂) =
      unpacked .positive S E := by
  have hpow : (2 : ℚ) ^ (e₁ + e₂) ≠ 0 := by positivity
  have hproduct : (m₁ * 2 ^ e₁ * (m₂ * 2 ^ e₂) : ℚ) / 2 ^ (e₁ + e₂) = (m₁ * m₂ : Nat) := by
    rw [div_eq_iff hpow, zpow_add₀ two_ne_zero]
    push_cast
    ring
  have hlog : 52 ≤ (m₁ * m₂).log2 := (Nat.le_log2 (by positivity)).2 hlong
  have hlocates : Locates (.ofMantissaAndAccuracy (m₁ * m₂) .exact)
      ((m₁ * 2 ^ e₁ * (m₂ * 2 ^ e₂) : ℚ) / 2 ^ (e₁ + e₂)) := hproduct
  exact roundWithAccuracy_eq hc hq hlocates (by omega) .positive

/-- What a division with remainder tells of the quotient. -/
theorem locates_accuracyOfFraction (m : Nat) {d : Nat} (hd : 0 < d) :
    Locates (.ofMantissaAndAccuracy (m / d) (accuracyOfFraction (m % d) d)) (m / d : ℚ) := by
  have hlt := Nat.mod_lt m hd
  have hpos : (0 : ℚ) < d := by exact_mod_cast hd
  have hdiv : (m : ℚ) = d * (m / d : Nat) + (m % d : Nat) := by exact_mod_cast (Nat.div_add_mod m d).symm
  have hquot : (m / d : ℚ) = (m / d : Nat) + (m % d : Nat) / d := by
    rw [hdiv, add_div, mul_div_cancel_left₀ _ hpos.ne']
  have hrem : ((m % d : Nat) : ℚ) / d < 1 := (div_lt_one hpos).2 (by exact_mod_cast hlt)
  rw [hquot]
  unfold accuracyOfFraction
  by_cases hzero : m % d = 0
  · rw [if_pos hzero, hzero]
    simp [Locates, ExtendedMantissa.ofMantissaAndAccuracy]
  rw [if_neg hzero]
  have hrempos : (0 : ℚ) < (m % d : Nat) / d := div_pos (by exact_mod_cast Nat.pos_of_ne_zero hzero) hpos
  cases hcompare : compare (2 * (m % d)) d with
  | lt =>
    have h2 : (2 * (m % d : Nat) : ℚ) < d := by exact_mod_cast Nat.compare_eq_lt.1 hcompare
    have hhalf : ((m % d : Nat) : ℚ) / d < 1 / 2 := by rw [div_lt_iff₀ hpos]; linarith
    constructor <;> simp only [ExtendedMantissa.ofMantissaAndAccuracy] <;> linarith
  | eq =>
    have h2 : (2 * (m % d : Nat) : ℚ) = d := by exact_mod_cast Nat.compare_eq_eq.1 hcompare
    have hhalf : ((m % d : Nat) : ℚ) / d = 1 / 2 := by rw [div_eq_iff hpos.ne']; linarith
    simp only [Locates, ExtendedMantissa.ofMantissaAndAccuracy]
    rw [hhalf]
  | gt =>
    have h2 : (d : ℚ) < 2 * (m % d : Nat) := by exact_mod_cast Nat.compare_eq_gt.1 hcompare
    have hhalf : 1 / 2 < ((m % d : Nat) : ℚ) / d := by rw [lt_div_iff₀ hpos]; linarith
    constructor <;> simp only [ExtendedMantissa.ofMantissaAndAccuracy] <;> linarith

/-- A quotient near a float is that float. -/
theorem div_eq_of_nearby (hc : Canonical S E) {m₁ m₂ : Nat} {e₁ e₂ : Int} (h₁ : 0 < m₁) (h₂ : 0 < m₂)
    (hq : Nearby S E (m₁ * 2 ^ e₁ / (m₂ * 2 ^ e₂))) :
    UnpackedFloat.div Format.binary64 (.finite .positive m₁ e₁ h₁) (.finite .positive m₂ e₂ h₂) =
      unpacked .positive S E := by
  have htarget : Format.binary64.targetExponent (totalExponent m₁ e₁ - totalExponent m₂ e₂) =
      max (m₁.log2 + e₁ - (m₂.log2 + e₂) - 53) (-1074) := by
    simp only [Format.targetExponent, totalExponent, Format.mantissaBits, Format.minExponent]
    norm_num
    omega
  unfold UnpackedFloat.div divCore
  dsimp only
  rw [htarget]
  generalize ht : min (e₁ - e₂) (max (m₁.log2 + e₁ - (m₂.log2 + e₂) - 53) (-1074)) = t
  generalize hk : (e₁ - e₂ - t).toNat = k
  have hmove : e₁ - e₂ = t + k := by omega
  have hpow₁ : (2 : ℚ) ^ e₁ = 2 ^ t * 2 ^ k * 2 ^ e₂ := by
    rw [← zpow_natCast, ← zpow_add₀ two_ne_zero, ← zpow_add₀ two_ne_zero]
    congr 1
    omega
  have hpow : (2 : ℚ) ^ t ≠ 0 := by positivity
  have hpow₂ : (2 : ℚ) ^ e₂ ≠ 0 := by positivity
  have hm₂ : (m₂ : ℚ) ≠ 0 := by exact_mod_cast h₂.ne'
  have hquot : (m₁ * 2 ^ e₁ / (m₂ * 2 ^ e₂) : ℚ) / 2 ^ t = (m₁ <<< k : Nat) / m₂ := by
    rw [hpow₁, Nat.shiftLeft_eq]
    push_cast
    field_simp
  have hlocates := locates_accuracyOfFraction (m₁ <<< k) h₂
  rw [← hquot] at hlocates
  refine roundWithAccuracy_eq hc hq hlocates ?_ .positive
  by_cases hleast : t ≤ -1074
  · omega
  -- The numerator was shifted so far that the quotient has all digits of a significand.
  have hfar : 53 + m₂.log2 ≤ m₁.log2 + k := by omega
  have hnum : 2 ^ 52 * 2 ^ (m₂.log2 + 1) ≤ m₁ <<< k := by
    rw [Nat.shiftLeft_eq]
    calc 2 ^ 52 * 2 ^ (m₂.log2 + 1) = 2 ^ (53 + m₂.log2) := by rw [← Nat.pow_add]; congr 1; omega
      _ ≤ 2 ^ (m₁.log2 + k) := Nat.pow_le_pow_right (by decide) hfar
      _ = 2 ^ m₁.log2 * 2 ^ k := Nat.pow_add ..
      _ ≤ m₁ * 2 ^ k := Nat.mul_le_mul_right _ (Nat.log2_self_le h₁.ne')
  have hlong : 2 ^ 52 ≤ (m₁ <<< k) / m₂ := by
    rw [Nat.le_div_iff_mul_le h₂]
    exact (Nat.mul_le_mul_left _ Nat.lt_log2_self.le).trans hnum
  have hlog : 52 ≤ ((m₁ <<< k) / m₂).log2 := (Nat.le_log2 (by omega)).2 hlong
  omega

/-! ## Whole numbers and powers of ten -/

/-- A significand that has all of its digits, and an exponent that is not too large. -/
structure Normal (S : Nat) (E : Int) : Prop where
  long : 2 ^ 52 ≤ S
  lt : S < 2 ^ 53
  least : -1074 ≤ E
  most : E ≤ 971

namespace Normal

variable {S₁ S₂ : Nat} {E₁ E₂ : Int}

theorem canonical (h : Normal S E) : Canonical S E := ⟨h.lt, h.least, .inl h.long⟩

theorem pos (h : Normal S E) : 0 < S := (Nat.two_pow_pos 52).trans_le h.long

theorem unpack_pack (h : Normal S E) (s : Sign) :
    (Float.Model.pack (unpacked s S E)).unpack = .finite s S E h.pos := by
  rw [h.canonical.unpack_pack h.most, unpacked_of_pos s h.pos]

/-- Floats near whose product there is a float have it as their product. -/
theorem mul_ofParts (h₁ : Normal S₁ E₁) (h₂ : Normal S₂ E₂) (hc : Canonical S E)
    (hq : Nearby S E (S₁ * 2 ^ E₁ * (S₂ * 2 ^ E₂))) :
    ofParts .positive S₁ E₁ * ofParts .positive S₂ E₂ = ofParts .positive S E := by
  have hlong : 2 ^ 52 ≤ S₁ * S₂ := h₁.long.trans (Nat.le_mul_of_pos_right _ h₂.pos)
  show Float.ofModel (.pack (UnpackedFloat.mul Format.binary64 (Float.Model.pack (unpacked .positive S₁ E₁)).unpack
    (Float.Model.pack (unpacked .positive S₂ E₂)).unpack)) = _
  rw [h₁.unpack_pack, h₂.unpack_pack, mul_eq_of_nearby hc h₁.pos h₂.pos hq hlong]
  rfl

/-- Floats near whose quotient there is a float have it as their quotient. -/
theorem div_ofParts (h₁ : Normal S₁ E₁) (h₂ : Normal S₂ E₂) (hc : Canonical S E)
    (hq : Nearby S E (S₁ * 2 ^ E₁ / (S₂ * 2 ^ E₂))) :
    ofParts .positive S₁ E₁ / ofParts .positive S₂ E₂ = ofParts .positive S E := by
  show Float.ofModel (.pack (UnpackedFloat.div Format.binary64 (Float.Model.pack (unpacked .positive S₁ E₁)).unpack
    (Float.Model.pack (unpacked .positive S₂ E₂)).unpack)) = _
  rw [h₁.unpack_pack, h₂.unpack_pack, div_eq_of_nearby hc h₁.pos h₂.pos hq]
  rfl

end Normal

/-- The significand of a whole number. -/
def wholeSignificand (n : Nat) : Nat := n <<< (52 - n.log2)

/-- The exponent of the last place of a whole number. -/
def wholeLastPlace (n : Nat) : Int := -(52 - n.log2 : Nat)

theorem wholeSignificand_mul (n : Nat) : (wholeSignificand n : ℚ) * 2 ^ wholeLastPlace n = n := by
  unfold wholeSignificand wholeLastPlace
  rw [Nat.shiftLeft_eq, zpow_neg, zpow_natCast]
  push_cast
  field_simp

/-- A whole number that has no more digits than a significand is a float, and so are its multiples by powers of
two. -/
theorem normal_multiple {n e : Nat} (hn : 0 < n) (hlt : n < 2 ^ 53) (he : e ≤ 971) :
    Normal (wholeSignificand n) (wholeLastPlace n + e) := by
  have hlog : n.log2 < 53 := (Nat.log2_lt hn.ne').2 hlt
  have hself := Nat.log2_self_le hn.ne'
  have hnext : n < 2 ^ (n.log2 + 1) := Nat.lt_log2_self
  unfold wholeSignificand wholeLastPlace
  refine ⟨?_, ?_, by omega, by omega⟩
  · rw [Nat.shiftLeft_eq]
    calc 2 ^ 52 = 2 ^ n.log2 * 2 ^ (52 - n.log2) := by rw [← Nat.pow_add]; congr 1; omega
      _ ≤ n * 2 ^ (52 - n.log2) := Nat.mul_le_mul_right _ hself
  · rw [Nat.shiftLeft_eq]
    calc n * 2 ^ (52 - n.log2) < 2 ^ (n.log2 + 1) * 2 ^ (52 - n.log2) := by gcongr
      _ = 2 ^ 53 := by rw [← Nat.pow_add]; congr 1; omega

theorem normal_whole {n : Nat} (hn : 0 < n) (hlt : n < 2 ^ 53) : Normal (wholeSignificand n) (wholeLastPlace n) := by
  simpa using normal_multiple hn hlt (Nat.zero_le 971)

/-- A whole number is converted to its float. -/
theorem toFloat_toUInt64 {n : Nat} (hn : 0 < n) (hlt : n < 2 ^ 53) :
    n.toUInt64.toFloat = ofParts .positive (wholeSignificand n) (wholeLastPlace n) := by
  have hlog : n.log2 < 53 := (Nat.log2_lt hn.ne').2 hlt
  have hnat : n.toUInt64.toNat = n := UInt64.toNat_ofNat_of_lt' (hlt.trans (by decide))
  have htarget : (0 - max ((n.log2 : Int) + 0 - 52) (-1074)).toNat = 52 - n.log2 := by omega
  have hround : UnpackedFloat.round Format.binary64 .positive n 0 =
      unpacked .positive (wholeSignificand n) (wholeLastPlace n) := by
    unfold UnpackedFloat.round decreaseExponent
    dsimp only
    rw [targetExponent_eq, htarget, Int.zero_sub]
    exact (normal_whole hn hlt).canonical.roundWithAccuracy_exact .positive
  show Float.ofModel (.pack (UnpackedFloat.normalize Format.binary64 (n.toUInt64.toNat : Int) 0 .positive)) = _
  unfold UnpackedFloat.normalize
  rw [hnat, Int.compare_eq_gt.2 (by omega)]
  dsimp only
  rw [Int.toNat_natCast, hround]
  rfl

theorem normal_powerOfTen {e : Nat} (he : e ≤ 22) :
    Normal (wholeSignificand (5 ^ e)) (wholeLastPlace (5 ^ e) + e) := by
  have hlt : 5 ^ e < 2 ^ 53 := (Nat.pow_le_pow_right (by decide) he).trans_lt (by decide : 5 ^ 22 < 2 ^ 53)
  exact normal_multiple (Nat.pow_pos (by decide)) hlt (he.trans (by decide))

theorem powerOfTen_mul (e : Nat) :
    (wholeSignificand (5 ^ e) : ℚ) * 2 ^ (wholeLastPlace (5 ^ e) + e) = 10 ^ e := by
  rw [zpow_add₀ two_ne_zero, ← mul_assoc, wholeSignificand_mul, zpow_natCast, Nat.cast_pow, ← mul_pow]
  norm_num

/-- The powers of ten up to the twenty-second one are floats. -/
theorem exactlyRepresentablePowersOfTen_eq : ∀ (e : Fin 23) (_ : e.val < Float.exactlyRepresentablePowersOfTen.size),
    Float.exactlyRepresentablePowersOfTen[e.val] =
      ofParts .positive (wholeSignificand (5 ^ e.val)) (wholeLastPlace (5 ^ e.val) + e.val) := by
  decide +kernel

/-! ## Decimals -/

/-- What is near to a finite float is not beyond all of them. -/
theorem Nearby.lt_two_pow (hc : Canonical S E) (hE : E ≤ 971) (hq : Nearby S E q) : q < 2 ^ (1024 : Int) := by
  have hS : (S : ℚ) + 1 ≤ 2 ^ 53 := by exact_mod_cast hc.lt
  calc q ≤ (S + 1 / 2) * 2 ^ E := hq.upper
    _ < 2 ^ 53 * 2 ^ E := by gcongr; linarith
    _ = 2 ^ (53 + E) := by rw [zpow_add₀ two_ne_zero]; norm_num
    _ ≤ 2 ^ (1024 : Int) := zpow_le_zpow_right₀ one_le_two (by omega)

/-- What is near to a float other than zero is not too small. -/
theorem Nearby.two_pow_le (hc : Canonical S E) (hS : 0 < S) (hq : Nearby S E q) : 2 ^ (-1075 : Int) ≤ q := by
  have hone : (1 : ℚ) ≤ S := by exact_mod_cast hS
  have hleast := hc.least
  obtain ⟨-, hhalf⟩ := halfBelow_pos_le S E
  calc (2 : ℚ) ^ (-1075 : Int) ≤ 2 ^ (E - 1) := zpow_le_zpow_right₀ one_le_two (by omega)
    _ = 1 / 2 * 2 ^ E := by rw [zpow_sub_one₀ two_ne_zero]; ring
    _ ≤ (S - halfBelow S E) * 2 ^ E := by gcongr; linarith
    _ ≤ q := hq.lower

/-- All finite floats lie between these powers of two and of ten. -/
theorem two_pow_le_ten_pow :
    (2 : ℚ) ^ (1024 : Int) ≤ 10 ^ (310 : Int) ∧ (10 : ℚ) ^ (-330 : Int) ≤ 2 ^ (-1075 : Int) := by
  have hcast : ∀ a b c d : Nat, a ^ b ≤ c ^ d → (a : ℚ) ^ (b : Int) ≤ c ^ (d : Int) := by
    intro a b c d h
    rw [zpow_natCast, zpow_natCast]
    exact_mod_cast h
  have hlarge : 2 ^ 1024 ≤ 10 ^ 310 := by decide +kernel
  have hsmall : 2 ^ 1075 ≤ 10 ^ 330 := by decide +kernel
  refine ⟨hcast 2 1024 10 310 hlarge, ?_⟩
  rw [zpow_neg, zpow_neg]
  exact inv_anti₀ (by positivity) (hcast 2 1075 10 330 hsmall)

variable {m : Nat} {k : Int}

/-- A decimal with its point far behind its digits is beyond all finite floats. -/
theorem two_pow_le_of_point (hm : 0 < m) (h : 310 < (digitCount m : Int) + k) :
    (2 : ℚ) ^ (1024 : Int) ≤ m * 10 ^ k := by
  have hdigits : (10 : ℚ) ^ (digitCount m - 1) ≤ m := by exact_mod_cast pow_digitCount_le hm
  have hcount : 0 < digitCount m := Nat.length_toDigits_pos
  calc (2 : ℚ) ^ (1024 : Int) ≤ 10 ^ (310 : Int) := two_pow_le_ten_pow.1
    _ ≤ 10 ^ (((digitCount m - 1 : Nat) : Int) + k) := zpow_le_zpow_right₀ (by norm_num) (by omega)
    _ = 10 ^ (digitCount m - 1) * 10 ^ k := by rw [zpow_add₀ (by norm_num), zpow_natCast]
    _ ≤ m * 10 ^ k := by gcongr

/-- A decimal with its point far in front of its digits is smaller than all floats but zero. -/
theorem lt_two_pow_of_point (h : (digitCount m : Int) + k < -330) : (m : ℚ) * 10 ^ k < 2 ^ (-1075 : Int) := by
  have hdigits : (m : ℚ) < 10 ^ digitCount m := by exact_mod_cast lt_pow_digitCount m
  calc (m : ℚ) * 10 ^ k < 10 ^ digitCount m * 10 ^ k := by gcongr
    _ = 10 ^ ((digitCount m : Int) + k) := by rw [zpow_add₀ (by norm_num), zpow_natCast]
    _ ≤ 10 ^ (-330 : Int) := zpow_le_zpow_right₀ (by norm_num) (by omega)
    _ ≤ 2 ^ (-1075 : Int) := two_pow_le_ten_pow.2

/-- A decimal near a float is converted to it by exact arithmetic, if its point is not far from its digits. -/
theorem model_ofScientific_eq (hm : 0 < m) (hleast : -330 ≤ (digitCount m : Int) + k)
    (hmost : (digitCount m : Int) + k ≤ 310) (hc : Canonical S E) (hq : Nearby S E (m * 10 ^ k)) :
    UnpackedFloat.ofScientific Format.binary64 m k = unpacked .positive S E := by
  have hcount : 0 < digitCount m := Nat.length_toDigits_pos
  have hlog := digitCount_le_log2 m
  have hlarge : ¬ k > 2 ^ Format.binary64.exponentBits := by
    show ¬ k > 2 ^ 11
    omega
  have hsmall : ¬ k < -((2 ^ Format.binary64.exponentBits : Int) + m.log2) := by
    show ¬ k < -((2 ^ 11 : Int) + m.log2)
    omega
  unfold UnpackedFloat.ofScientific
  rw [dif_neg hm.ne', if_neg hlarge, if_neg hsmall]
  split
  · next hk =>
    have hten : (10 : ℚ) ^ k = (10 ^ k.toNat : Nat) := by
      push_cast
      rw [← zpow_natCast]
      congr 1
      omega
    have hvalue : ((m <<< 53 : Nat) : ℚ) * 2 ^ (-53 : Int) * ((10 ^ k.toNat : Nat) * 2 ^ (0 : Int)) = m * 10 ^ k := by
      rw [hten, Nat.shiftLeft_eq, zpow_zero, mul_one]
      norm_num
      ring
    have hpos : 0 < m <<< 53 := by rw [Nat.shiftLeft_eq]; positivity
    have hpow : 0 < 10 ^ k.toNat := by positivity
    have hlong : 2 ^ 52 ≤ m <<< 53 * 10 ^ k.toNat := by
      rw [Nat.shiftLeft_eq]
      have h53 : 2 ^ 53 ≤ m * 2 ^ 53 := Nat.le_mul_of_pos_left _ hm
      have := Nat.le_mul_of_pos_right (m * 2 ^ 53) hpow
      omega
    exact mul_eq_of_nearby hc hpos hpow (hvalue.symm ▸ hq) hlong
  · next hk =>
    have hten : (10 : ℚ) ^ k = 1 / (10 ^ (-k).toNat : Nat) := by
      push_cast
      rw [← zpow_natCast, one_div, ← zpow_neg]
      congr 1
      omega
    have hvalue : (m * 2 ^ (0 : Int) / ((10 ^ (-k).toNat : Nat) * 2 ^ (0 : Int)) : ℚ) = m * 10 ^ k := by
      rw [hten, zpow_zero, mul_one, mul_one, mul_one_div]
    have hpow : 0 < 10 ^ (-k).toNat := by positivity
    exact div_eq_of_nearby hc hm hpow (hvalue.symm ▸ hq)

/-- So it is where its digits and the power of ten are floats, and one operation on these is enough. -/
theorem ofScientific_eq_of_nearby (hm : 0 < m) (hleast : -330 ≤ (digitCount m : Int) + k)
    (hmost : (digitCount m : Int) + k ≤ 310) (hc : Canonical S E) (hq : Nearby S E (m * 10 ^ k)) :
    Float.ofScientific m (k < 0) k.natAbs = ofParts .positive S E := by
  unfold Float.ofScientific
  split
  · next hfast =>
    obtain ⟨hlt, he⟩ := hfast
    have hwhole := normal_whole hm hlt
    have hpower := normal_powerOfTen he
    have htable := exactlyRepresentablePowersOfTen_eq ⟨k.natAbs, Nat.lt_succ_of_le he⟩
    rw [htable, toFloat_toUInt64 hm hlt]
    dsimp only
    split
    · next h =>
      have hten : (10 : ℚ) ^ k = 1 / 10 ^ k.natAbs := by
        rw [← zpow_natCast, one_div, ← zpow_neg]
        congr 1
        have := of_decide_eq_true h
        omega
      refine hwhole.div_ofParts hpower hc ?_
      rwa [wholeSignificand_mul, powerOfTen_mul, ← mul_one_div, ← hten]
    · next h =>
      have hten : (10 : ℚ) ^ k = 10 ^ k.natAbs := by
        rw [← zpow_natCast]
        congr 1
        have := of_decide_eq_false (Bool.eq_false_iff.2 h)
        omega
      refine hwhole.mul_ofParts hpower hc ?_
      rwa [wholeSignificand_mul, powerOfTen_mul, ← hten]
  · have hexp : (if decide (k < 0) = true then Int.negOfNat k.natAbs else Int.ofNat k.natAbs) = k := by
      split
      · next h =>
        have := of_decide_eq_true h
        rw [Int.negOfNat_eq]
        show -(k.natAbs : Int) = k
        omega
      · next h =>
        have := of_decide_eq_false (Bool.eq_false_iff.2 h)
        show (k.natAbs : Int) = k
        omega
    dsimp only
    rw [hexp]
    show Float.ofModel (.pack (UnpackedFloat.ofScientific Format.binary64 m k)) = _
    rw [model_ofScientific_eq hm hleast hmost hc hq]
    rfl

theorem ofParts_zero (E : Int) : ofParts .positive 0 E = 0.0 := by
  have hzero : ofParts .positive 0 E = ofParts .positive 0 0 := rfl
  rw [hzero]
  decide +kernel

theorem ofParts_overflow (hc : Canonical S E) (hE : 972 ≤ E) :
    ofParts .positive S E = Float.ofBits 0x7ff0000000000000 := by
  refine eq_of_toBits ((congrArg UInt64.ofBitVec (hc.pack_overflow hE .positive)).trans ?_)
  decide +kernel

/-- A decimal near a float is converted to it. -/
theorem toFloat_eq_of_nearby (hc : Canonical S E) (hq : Nearby S E (m * 10 ^ k)) :
    toFloat m k = ofParts .positive S E := by
  have hzero : (m : ℚ) * 10 ^ k < 2 ^ (-1075 : Int) → ofParts .positive S E = 0.0 := by
    intro hlt
    rcases Nat.eq_zero_or_pos S with rfl | hS
    · exact ofParts_zero E
    · exact absurd (hq.two_pow_le hc hS) (not_le.2 hlt)
  unfold toFloat
  dsimp only
  split
  · next hm =>
    refine (hzero ?_).symm
    rw [hm, Nat.cast_zero, zero_mul]
    positivity
  next hm =>
  split
  · next hlarge =>
    have hE : 972 ≤ E := by
      by_contra hE
      exact absurd (two_pow_le_of_point (Nat.pos_of_ne_zero hm) hlarge) (not_le.2 (hq.lt_two_pow hc (by omega)))
    exact (ofParts_overflow hc hE).symm
  split
  · next hsmall => exact (hzero (lt_two_pow_of_point hsmall)).symm
  · exact ofScientific_eq_of_nearby (Nat.pos_of_ne_zero hm) (by omega) (by omega) hc hq

end Attest.Decimal
