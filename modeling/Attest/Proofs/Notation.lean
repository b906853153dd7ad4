import Attest.Proofs.Shortest
import Attest.Proofs.Spelling
/-!
# A finite float is displayed as a numeral for it

A decimal is written as a numeral that has a fraction or an exponent, so that it cannot be read as an integer,
and that is as large as the decimal, wherever its point was put and whatever zeros were left out or added for
that (`exists_numeral_text`). For the shortest decimal of a float that numeral stands for the float
(`exists_numeral_render`).
-/

namespace Attest.Decimal

open Source

/-! ## Digits -/

theorem digitsValue_append (as bs : List Char) :
    digitsValue (as ++ bs) = digitsValue as * 10 ^ bs.length + digitsValue bs := by
  rw [digitsValue_eq, digitsValue_eq, digitsValue_eq, Nat.ofDigitChars_append, Nat.ofDigitChars_eq_ofDigitChars_zero,
    Nat.mul_comm]

theorem digitsValue_zeros (n : Nat) : digitsValue (List.replicate n '0') = 0 := by
  rw [digitsValue_eq, Nat.ofDigitChars_replicate_zero, Nat.mul_zero]

theorem isDigit_of_mem_zeros (n : Nat) : ∀ c ∈ List.replicate n '0', c.isDigit = true := by
  intro c hc
  rw [List.eq_of_mem_replicate hc]
  decide

/-- Zeros in front of digits do not count, and each of those behind them is a factor of ten. -/
theorem digitsValue_padded (front back : Nat) (digits : List Char) :
    digitsValue (List.replicate front '0' ++ (digits ++ List.replicate back '0')) =
      digitsValue digits * 10 ^ back := by
  rw [digitsValue_append, digitsValue_append, digitsValue_zeros, digitsValue_zeros, List.length_replicate]
  omega

/-- The digits of a decimal are its significant ones and zeros. -/
theorem Scaled.toDigits_eq (d : Scaled) :
    ∃ z, Nat.toDigits 10 d.digits = d.significant ++ List.replicate z '0' := by
  have hsplit := List.takeWhile_append_dropWhile (p := (· == '0')) (l := (Nat.toDigits 10 d.digits).reverse)
  have hzeros : ∀ c ∈ (Nat.toDigits 10 d.digits).reverse.takeWhile (· == '0'), c = '0' := fun c hc =>
    beq_iff_eq.1 (List.all_eq_true.1 List.all_takeWhile c hc)
  refine ⟨((Nat.toDigits 10 d.digits).reverse.takeWhile (· == '0')).length, ?_⟩
  rw [← List.reverse_inj, List.reverse_append, List.reverse_replicate, ← List.eq_replicate_of_mem hzeros, significant,
    List.reverse_reverse, hsplit]

/-- A decimal is its significant digits, placed by its point. -/
theorem Scaled.value_eq (d : Scaled) : (d.digits * 10 ^ d.exponent : ℚ) =
    digitsValue d.significant * 10 ^ (d.point - d.significant.length) := by
  obtain ⟨z, hz⟩ := d.toDigits_eq
  have hdigits : (d.digits : ℚ) = digitsValue d.significant * 10 ^ z := by
    have hpadded := digitsValue_padded 0 z d.significant
    rw [List.replicate_zero, List.nil_append, ← hz, digitsValue_toDigits] at hpadded
    exact_mod_cast hpadded
  have hpoint : d.point - d.significant.length = z + d.exponent := by
    rw [point, digitCount, hz, List.length_append, List.length_replicate]
    omega
  rw [hdigits, hpoint, zpow_add₀ (by norm_num), zpow_natCast, mul_assoc]

theorem Scaled.isDigit_of_mem_significant {d : Scaled} : ∀ c ∈ d.significant, c.isDigit = true := by
  obtain ⟨z, hz⟩ := d.toDigits_eq
  exact fun c hc => isDigit_of_mem_toDigits (n := d.digits) c (by rw [hz]; exact List.mem_append_left _ hc)

theorem Scaled.significant_ne_nil {d : Scaled} (h : 0 < d.digits) : d.significant ≠ [] := by
  obtain ⟨z, hz⟩ := d.toDigits_eq
  intro hnil
  rw [hnil, List.nil_append] at hz
  have hzero := digitsValue_toDigits d.digits
  rw [hz, digitsValue_zeros] at hzero
  omega

/-! ## Numerals for decimals -/

/-- How large the number is that a numeral writes. -/
def Numeral.size (n : Numeral) : ℚ :=
  digitsValue (n.whole ++ n.fraction) * 10 ^ (n.exponent.getD 0 - n.fraction.length)

/-- A numeral with a fraction or an exponent that, its sign apart, is written as a text and of a given size. -/
structure Numeral.Writes (n : Numeral) (text : List Char) (size : ℚ) : Prop where
  written : n.Written
  sizeText_eq : n.sizeText = text
  toInt?_eq_none : n.toInt? = none
  size_eq : n.size = size

variable {digits : List Char}

/-- Digits written positionally are digits on both sides of a point, with zeros where others are missing. -/
theorem exists_positional_eq (hne : digits ≠ []) (point : Int) : ∃ (whole fraction : List Char) (front back : Nat),
    whole ≠ [] ∧ fraction ≠ [] ∧ positional digits point = whole ++ '.' :: fraction ∧
      whole ++ fraction = List.replicate front '0' ++ (digits ++ List.replicate back '0') ∧
      (fraction.length : Int) = digits.length + back - point := by
  cases point with
  | negSucc k =>
    refine ⟨['0'], List.replicate (k + 1) '0' ++ digits, k + 2, 0, List.cons_ne_nil _ _, by simp [hne],
      by simp [positional], by simp [List.replicate_succ], ?_⟩
    rw [List.length_append, List.length_replicate]
    omega
  | ofNat k =>
    rcases Nat.eq_zero_or_pos k with rfl | hk
    · exact ⟨['0'], digits, 1, 0, List.cons_ne_nil _ _, hne, rfl, by simp, by simp⟩
    rcases Nat.lt_or_ge k digits.length with hlen | hlen
    · -- The point is between digits.
      have htake : digits.take k ≠ [] := List.take_eq_nil_iff.not.2 (not_or.2 ⟨hk.ne', hne⟩)
      have hdrop : digits.drop k ≠ [] := List.drop_eq_nil_iff.not.2 (Nat.not_le.2 hlen)
      refine ⟨digits.take k, digits.drop k, 0, 0, htake, hdrop, ?_, by simp, ?_⟩
      · simp [positional, hk.ne', hdrop, hlen.le]
      · rw [List.length_drop, Int.ofNat_eq_natCast]
        omega
    · -- Zeros follow the digits up to the point, and one more behind it.
      refine ⟨digits ++ List.replicate (k - digits.length) '0', ['0'], 0, k - digits.length + 1, by simp [hne],
        List.cons_ne_nil _ _, by simp [positional, hk.ne', hlen], by simp [List.replicate_succ'], ?_⟩
      rw [List.length_singleton, Int.ofNat_eq_natCast]
      omega

/-- Digits written positionally are a numeral, whatever its sign. -/
theorem exists_numeral_positional (hne : digits ≠ []) (hdigits : ∀ c ∈ digits, c.isDigit = true) (point : Int)
    (negative : Bool) : ∃ n : Numeral, n.negative = negative ∧
      n.Writes (positional digits point) (digitsValue digits * 10 ^ (point - digits.length)) := by
  obtain ⟨whole, fraction, front, back, hwhole, hfraction, htext, hpadded, hlength⟩ := exists_positional_eq hne point
  have hall : ∀ c ∈ whole ++ fraction, c.isDigit = true := by
    rw [hpadded]
    intro c hc
    rcases List.mem_append.1 hc with hc | hc
    · exact isDigit_of_mem_zeros front c hc
    rcases List.mem_append.1 hc with hc | hc
    · exact hdigits c hc
    · exact isDigit_of_mem_zeros back c hc
  obtain ⟨d, ds, rfl⟩ := List.exists_cons_of_ne_nil hfraction
  refine ⟨⟨negative, whole, d :: ds, none⟩, rfl, ⟨hwhole, ?_, ?_⟩, ?_, rfl, ?_⟩
  · exact fun c hc => hall c (List.mem_append_left _ hc)
  · exact fun c hc => hall c (List.mem_append_right _ hc)
  · rw [htext, Numeral.sizeText, Numeral.exponentText, List.append_nil]
    rfl
  · have hplace : (0 : Int) - (d :: ds).length = point - digits.length - back := by omega
    rw [Numeral.size, hpadded, digitsValue_padded, Option.getD_none, hplace, zpow_sub₀ (by norm_num) _ (back : Int),
      zpow_natCast]
    push_cast
    field_simp

/-- Digits written with an exponent are a numeral, whatever its sign. -/
theorem exists_numeral_scientific (hne : digits ≠ []) (hdigits : ∀ c ∈ digits, c.isDigit = true) (point : Int)
    (negative : Bool) : ∃ n : Numeral, n.negative = negative ∧
      n.Writes (scientific digits point) (digitsValue digits * 10 ^ (point - digits.length)) := by
  obtain ⟨d, ds, rfl⟩ := List.exists_cons_of_ne_nil hne
  refine ⟨⟨negative, [d], ds, some (point - 1)⟩, rfl, ⟨List.cons_ne_nil d [], ?_, ?_⟩, ?_, ?_, ?_⟩
  · exact fun c hc => hdigits c (List.mem_cons.2 (.inl (List.mem_singleton.1 hc)))
  · exact fun c hc => hdigits c (List.mem_cons_of_mem d hc)
  · cases ds <;> rfl
  · cases ds <;> rfl
  · have hexp : point - 1 - (ds.length : Int) = point - (d :: ds).length := by
      rw [List.length_cons]
      omega
    rw [Numeral.size, Option.getD_some, hexp]
    rfl

/-- The text of a decimal is a numeral for it, whatever its sign. -/
theorem exists_numeral_text {d : Scaled} (h : 0 < d.digits) (negative : Bool) :
    ∃ n : Numeral, n.negative = negative ∧ n.Writes d.text (d.digits * 10 ^ d.exponent) := by
  have hne := Scaled.significant_ne_nil h
  rw [d.value_eq, Scaled.text]
  split
  · exact exists_numeral_positional hne Scaled.isDigit_of_mem_significant d.point negative
  · exact exists_numeral_scientific hne Scaled.isDigit_of_mem_significant d.point negative

/-! ## Numerals for floats -/

variable {x : Float}

variable {S : Nat} {E : Int}

/-- The sign of a numeral. -/
def Numeral.sign (n : Numeral) : Float.Model.UnpackedFloat.Sign := if n.negative then .negative else .positive

/-- What is near to a float other than zero has a digit that is not zero. -/
theorem Nearby.digits_pos {m : Nat} {k : Int} (hc : Canonical S E) (hS : 0 < S) (hq : Nearby S E (m * 10 ^ k)) :
    0 < m := by
  have hle := hq.two_pow_le hc hS
  refine Nat.pos_of_ne_zero fun hm => ?_
  rw [hm, Nat.cast_zero, zero_mul] at hle
  exact absurd hle (not_le.2 (zpow_pos two_pos _))

/-- A numeral near a float stands for it, with the sign of the numeral. -/
theorem Numeral.toFloat_eq (hc : Canonical S E) {n : Numeral} (hq : Nearby S E n.size) :
    n.toFloat = ofParts n.sign S E := by
  have hfloat : Decimal.toFloat (digitsValue (n.whole ++ n.fraction)) (n.exponent.getD 0 - n.fraction.length) = _ :=
    toFloat_eq_of_nearby hc hq
  rw [toFloat, hfloat, sign]
  split
  · exact hc.neg_ofParts .positive
  · rfl

theorem eq_zero_of_fields (hexponent : exponentField x = 0) (hfraction : fractionField x = 0) :
    x = if isNegative x then -0.0 else 0.0 := by
  have hbits := toNat_toBits x
  rw [hexponent, hfraction] at hbits
  refine eq_of_toBits (UInt64.toNat_inj.1 ?_)
  split
  · next hnegative =>
    rw [hbits, if_pos hnegative]
    decide +kernel
  · next hpositive =>
    rw [hbits, if_neg hpositive]
    decide +kernel

/-- A finite float is displayed as a numeral with a fraction or an exponent, and the numeral stands for it. -/
theorem exists_numeral_render (hfinite : exponentField x ≠ 2047) : ∃ n : Numeral,
    n.Written ∧ n.toInt? = none ∧ n.text = (render x).toList ∧ n.toFloat = x := by
  have htext : ∀ size : List Char, (if isNegative x then '-' :: size else size) =
      (if isNegative x then ['-'] else []) ++ size := by
    intro size
    split <;> rfl
  rw [render, if_neg hfinite]
  dsimp only
  rw [String.toList_ofList, htext]
  by_cases hzero : exponentField x = 0 ∧ fractionField x = 0
  · refine ⟨⟨isNegative x, ['0'], ['0'], none⟩,
      ⟨List.cons_ne_nil _ _, isDigit_of_mem_zeros 1, isDigit_of_mem_zeros 1⟩, rfl, ?_, ?_⟩
    · rw [if_pos hzero]
      rfl
    · conv_rhs => rw [eq_zero_of_fields hzero.1 hzero.2]
      rfl
  · have hpos : 0 < significand x := by
      unfold significand
      split <;> omega
    have hcanonical := canonical_significand x
    have hnearby := nearby_shortest hpos
    obtain ⟨n, hnegative, hn⟩ := exists_numeral_text (hnearby.digits_pos hcanonical hpos) (isNegative x)
    refine ⟨n, hn.written, hn.toInt?_eq_none, ?_, ?_⟩
    · rw [if_neg hzero, ← hn.sizeText_eq, ← hnegative]
      rfl
    · rw [Numeral.toFloat_eq hcanonical (hn.size_eq ▸ hnearby), Numeral.sign, hnegative]
      exact (eq_ofParts hfinite).symm

end Attest.Decimal
