import Attest.Proofs.Rounding
/-!
# Floats by their fields

A float has a sign, a significand and the exponent of its last place (`ofParts`). A finite float has the ones that
are read off its bits (`eq_ofParts`), and one whose exponent is too large is infinite (`exponentField_ofParts`).
-/

namespace Attest.Decimal

open Float.Model Float.Model.UnpackedFloat

/-! ## Packing -/

variable {S : Nat} {E : Int}

theorem unpacked_of_pos (sign : Sign) (hS : 0 < S) : unpacked sign S E = .finite sign S E hS := dif_neg hS.ne'

/-- The float with a sign, a significand and an exponent of the last place. -/
def ofParts (sign : Sign) (S : Nat) (E : Int) : Float := .ofModel (.pack (unpacked sign S E))

/-- Floats with the same bits are one. -/
theorem eq_of_toBits {x y : Float} (h : x.toBits = y.toBits) : x = y := by
  obtain ⟨⟨a, ha⟩⟩ := x
  obtain ⟨⟨b, hb⟩⟩ := y
  obtain rfl : a = b := h
  rfl

/-- The sign bit of a sign. -/
def signBit : Sign → Nat
  | .negative => 1
  | .positive => 0

theorem toNat_packComponents (s : Sign) (e : BitVec 11) (f : BitVec 52) :
    (packComponents Format.binary64 s e f).toNat = signBit s * 2 ^ 63 + e.toNat * 2 ^ 52 + f.toNat := by
  have he := e.isLt
  have hf := f.isLt
  have hhead : (s.toBitVec ++ e).toNat = signBit s * 2 ^ 11 + e.toNat := by
    rw [BitVec.toNat_append, ← Nat.shiftLeft_add_eq_or_of_lt he, Nat.shiftLeft_eq]
    cases s <;> rfl
  show (s.toBitVec ++ e ++ f).toNat = _
  rw [BitVec.toNat_append, ← Nat.shiftLeft_add_eq_or_of_lt hf, Nat.shiftLeft_eq, hhead]
  omega

/-- The exponent field of a float with a given significand and exponent of the last place. -/
def exponentOf (S : Nat) (E : Int) : Nat := if 2 ^ 52 ≤ S then (E + 1075).toNat else 0

theorem exponentOf_lt (hE : E ≤ 971) : exponentOf S E < 2047 := by
  unfold exponentOf
  split <;> omega

/-- The exponent as it is packed, before it is known to fit. -/
theorem biasedExponent_eq (E : Int) :
    E + Format.binary64.exponentBias + Format.binary64.mantissaBitsWithoutImplicit = E + 1075 := Int.add_assoc ..

/-- A float that is not too large is packed field by field. -/
theorem Canonical.pack_eq (hc : Canonical S E) (hE : E ≤ 971) (s : Sign) :
    UnpackedFloat.pack Format.binary64 (unpacked s S E) =
      packComponents Format.binary64 s (BitVec.ofNat 11 (exponentOf S E)) (BitVec.ofNat 52 S) := by
  rcases Nat.eq_zero_or_pos S with rfl | hpos
  · rfl
  have hleast := hc.least
  have hfits : ¬ 2 ^ Format.binary64.exponentBits ≤ (E + 1075).toNat + 1 := by
    show ¬ 2 ^ 11 ≤ _
    omega
  have hlog : S.log2 + 1 = Format.binary64.mantissaBits ↔ 2 ^ 52 ≤ S := by
    have hlt : S.log2 < 53 := (Nat.log2_lt hpos.ne').2 hc.lt
    have hle : 52 ≤ S.log2 ↔ 2 ^ 52 ≤ S := Nat.le_log2 hpos.ne'
    show S.log2 + 1 = 53 ↔ _
    omega
  rw [unpacked_of_pos s hpos]
  unfold UnpackedFloat.pack
  dsimp only
  rw [biasedExponent_eq, if_neg hfits]
  by_cases hnormal : 2 ^ 52 ≤ S
  · rw [if_pos (hlog.2 hnormal), exponentOf, if_pos hnormal]
  · rw [if_neg (hlog.not.2 hnormal), exponentOf, if_neg hnormal]

/-- A float that is too large is packed as an infinite one. -/
theorem Canonical.pack_overflow (hc : Canonical S E) (hE : 972 ≤ E) (s : Sign) :
    UnpackedFloat.pack Format.binary64 (unpacked s S E) = packedInfinity Format.binary64 s := by
  have hpos : 0 < S := (Nat.two_pow_pos 52).trans_le (hc.normal.resolve_right (by omega))
  have hlarge : 2 ^ Format.binary64.exponentBits ≤ (E + 1075).toNat + 1 := by
    show 2 ^ 11 ≤ _
    omega
  rw [unpacked_of_pos s hpos]
  unfold UnpackedFloat.pack
  dsimp only
  rw [biasedExponent_eq, if_pos hlarge]

/-- What was packed is unpacked again. -/
theorem Canonical.unpack_pack (hc : Canonical S E) (hE : E ≤ 971) (s : Sign) :
    (Float.Model.pack (unpacked s S E)).unpack = unpacked s S E := by
  rcases Nat.eq_zero_or_pos S with rfl | hpos
  · exact unpack_packedZero
  have hlt := hc.lt
  have hleast := hc.least
  have hexp : (BitVec.ofNat 11 (exponentOf S E)).toNat = exponentOf S E :=
    Nat.mod_eq_of_lt ((exponentOf_lt hE).trans (by norm_num))
  have hones : BitVec.ofNat 11 (exponentOf S E) ≠ -1#11 := by
    intro h
    have h2047 : exponentOf S E = 2047 := by rw [← hexp, h]; rfl
    exact (exponentOf_lt hE).ne h2047
  show UnpackedFloat.unpack Format.binary64 (UnpackedFloat.pack Format.binary64 _) = _
  rw [hc.pack_eq hE, unpacked_of_pos s hpos]
  unfold UnpackedFloat.unpack
  simp only [unpackMantissa_packComponents, unpackExponent_packComponents, unpackSign_packComponents,
    Sign.ofBitVec_toBitVec]
  rw [if_neg hones]
  by_cases hnormal : 2 ^ 52 ≤ S
  · have hfield : exponentOf S E = (E + 1075).toNat := if_pos hnormal
    have hzero : BitVec.ofNat 11 (exponentOf S E) ≠ 0#11 := by
      intro h
      have h0 : exponentOf S E = 0 := by rw [← hexp, h]; rfl
      omega
    have hmantissa : (1#1 ++ BitVec.ofNat 52 S).toNat = S := by
      rw [BitVec.toNat_append, ← Nat.shiftLeft_add_eq_or_of_lt (BitVec.isLt _), Nat.shiftLeft_eq, BitVec.toNat_ofNat,
        BitVec.toNat_ofNat]
      omega
    have hplace : (exponentOf S E : Int) -
        (Format.binary64.exponentBias + Format.binary64.mantissaBitsWithoutImplicit) = E := by
      show (exponentOf S E : Int) - 1075 = E
      omega
    rw [if_neg hzero]
    simp only [hexp, hmantissa, hplace]
  · have hfield : exponentOf S E = 0 := if_neg hnormal
    have hplace : E = -1074 := hc.normal.resolve_left hnormal
    have hmantissa : (BitVec.ofNat 52 S).toNat = S := Nat.mod_eq_of_lt (by omega)
    have hne : BitVec.ofNat 52 S ≠ 0#52 := by
      intro h
      rw [h] at hmantissa
      exact hpos.ne hmantissa
    rw [hfield, if_pos rfl, dif_neg hne]
    simp only [hmantissa, hplace]
    rfl

theorem neg_unpacked (s : Sign) (S : Nat) (E : Int) : (unpacked s S E).neg = unpacked (-s) S E := by
  unfold unpacked
  split <;> rfl

theorem Canonical.unpack_pack_overflow (hc : Canonical S E) (hE : 972 ≤ E) (s : Sign) :
    (Float.Model.pack (unpacked s S E)).unpack = .infinity s := by
  show UnpackedFloat.unpack Format.binary64 (UnpackedFloat.pack Format.binary64 _) = _
  rw [hc.pack_overflow hE]
  simp [UnpackedFloat.unpack, packedInfinity]

/-- Negation changes the sign. -/
theorem Canonical.neg_ofParts (hc : Canonical S E) (s : Sign) : -ofParts s S E = ofParts (-s) S E := by
  show Float.ofModel (.pack (Float.Model.pack (unpacked s S E)).unpack.neg) = _
  rcases lt_or_ge 971 E with hE | hE
  · rw [hc.unpack_pack_overflow hE]
    exact eq_of_toBits (congrArg UInt64.ofBitVec (hc.pack_overflow hE (-s)).symm)
  · rw [hc.unpack_pack hE, neg_unpacked]
    rfl

/-! ## The fields of a float -/

/-- The bits of a float are those of its fields. -/
theorem toNat_toBits (x : Float) : x.toBits.toNat =
    (if isNegative x then 1 else 0) * 2 ^ 63 + exponentField x * 2 ^ 52 + fractionField x := by
  have hlt : x.toBits.toNat < 2 ^ 64 := x.toBits.toNat_lt
  have hnegative : isNegative x = true ↔ 2 ^ 63 ≤ x.toBits.toNat := decide_eq_true_iff
  have hexponent : exponentField x = x.toBits.toNat / 2 ^ 52 % 2 ^ 11 := rfl
  have hfraction : fractionField x = x.toBits.toNat % 2 ^ 52 := rfl
  split
  · next h =>
    have := hnegative.1 h
    omega
  · next h =>
    have := mt hnegative.2 h
    omega

theorem exponentField_lt (x : Float) : exponentField x < 2 ^ 11 := Nat.mod_lt _ (by norm_num)

theorem fractionField_lt (x : Float) : fractionField x < 2 ^ 52 := Nat.mod_lt _ (by norm_num)

variable {x : Float}

theorem fields_packComponents {s : Sign} {e : BitVec 11} {f : BitVec 52}
    (h : x.toBits.toNat = (packComponents Format.binary64 s e f).toNat) :
    exponentField x = e.toNat ∧ fractionField x = f.toNat := by
  have he := e.isLt
  have hf := f.isLt
  have hs : signBit s < 2 := by cases s <;> decide
  rw [toNat_packComponents] at h
  have hexponent : exponentField x = x.toBits.toNat / 2 ^ 52 % 2 ^ 11 := rfl
  have hfraction : fractionField x = x.toBits.toNat % 2 ^ 52 := rfl
  omega

theorem Canonical.exponentField_ofParts (hc : Canonical S E) (hE : E ≤ 971) (s : Sign) :
    exponentField (ofParts s S E) ≠ 2047 := by
  have hbits : (ofParts s S E).toBits.toNat = (UnpackedFloat.pack Format.binary64 (unpacked s S E)).toNat := rfl
  rw [hc.pack_eq hE] at hbits
  have hlt := exponentOf_lt (S := S) hE
  rw [(fields_packComponents hbits).1, BitVec.toNat_ofNat]
  omega

/-- A float with too large an exponent is infinite. -/
theorem Canonical.fields_ofParts_overflow (hc : Canonical S E) (hE : 972 ≤ E) (s : Sign) :
    exponentField (ofParts s S E) = 2047 ∧ fractionField (ofParts s S E) = 0 := by
  have hbits : (ofParts s S E).toBits.toNat = (UnpackedFloat.pack Format.binary64 (unpacked s S E)).toNat := rfl
  rw [hc.pack_overflow hE] at hbits
  exact fields_packComponents hbits

/-- The sign of a float. -/
def signOf (x : Float) : Sign := if isNegative x then .negative else .positive

/-- The significand of a finite float. -/
def significand (x : Float) : Nat := if exponentField x = 0 then fractionField x else fractionField x + 2 ^ 52

/-- The exponent of the last place of a finite float. -/
def lastPlace (x : Float) : Int := ((if exponentField x = 0 then 1 else exponentField x : Nat) : Int) - 1075

theorem canonical_significand (x : Float) : Canonical (significand x) (lastPlace x) := by
  have hf := fractionField_lt x
  unfold significand lastPlace
  constructor <;> split <;> omega

theorem lastPlace_le (hfinite : exponentField x ≠ 2047) : lastPlace x ≤ 971 := by
  have he := exponentField_lt x
  unfold lastPlace
  split <;> omega

/-- A finite float is what its fields stand for. -/
theorem eq_ofParts (hfinite : exponentField x ≠ 2047) : x = ofParts (signOf x) (significand x) (lastPlace x) := by
  have he := exponentField_lt x
  have hf := fractionField_lt x
  have hexponent : exponentOf (significand x) (lastPlace x) = exponentField x := by
    unfold exponentOf significand lastPlace
    split <;> split <;> omega
  have hfraction : significand x % 2 ^ 52 = fractionField x := by
    unfold significand
    split <;> omega
  refine eq_of_toBits (UInt64.toNat_inj.1 ?_)
  show x.toBits.toNat = (UnpackedFloat.pack Format.binary64 _).toNat
  rw [(canonical_significand x).pack_eq (lastPlace_le hfinite), toNat_packComponents, BitVec.toNat_ofNat,
    BitVec.toNat_ofNat, hexponent, hfraction, Nat.mod_eq_of_lt he, toNat_toBits]
  unfold signOf
  split <;> rfl

end Attest.Decimal
