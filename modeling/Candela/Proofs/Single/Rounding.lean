import Mathlib
import Candela.Power
import Candela.Proofs.Single

/-!
# Rounding to single precision

A number with a sign is a mantissa of 24 bits, or fewer at the least exponent, and an exponent
(`Single.Regular`). What is unpacked is so (`Single.regular_of_unpack`), and what is so is packed as
it is, unless its exponent is too large (`Single.unpack_pack`). The result of an operation is
computed without losing a bit and rounded afterwards; rounding does not bring it below a regular
number that it is not below (`Single.Regular.exists_normalize`).
-/

namespace Candela.Single

open Float.Model (Format UnpackedFloat totalExponent)
open Float.Model.UnpackedFloat

variable {s : Sign} {m M : ℕ} {e E : ℤ} {x : Float32}

/-! ## Packing -/

/-- The number that the parts of a packed number stand for. -/
def ofParts (s : Sign) (exponent : BitVec 8) (mantissa : BitVec 23) : UnpackedFloat :=
  if exponent = -1#8 then if mantissa = 0#23 then .infinity s else .notANumber
  else if exponent = 0#8 then
    if h : 0 < mantissa.toNat then .finite s mantissa.toNat (-149) h else .zero s
  else .finite s (2 ^ 23 + mantissa.toNat) (exponent.toNat - 150) (Nat.add_pos_left (by decide) _)

/-- Numbers with the same parts are the same. -/
theorem finite_congr {m' : ℕ} {e' : ℤ} {hm : 0 < m} (h : m = m') (h' : e = e') :
    UnpackedFloat.finite s m e hm = .finite s m' e' (h ▸ hm) := by
  subst h h'
  rfl

theorem toNat_one_append (mantissa : BitVec 23) :
    (1#1 ++ mantissa).toNat = 2 ^ 23 + mantissa.toNat := by
  rw [BitVec.toNat_append, ← Nat.shiftLeft_add_eq_or_of_lt mantissa.isLt]
  rfl

/-- A number is unpacked from its parts. -/
theorem unpack_eq_ofParts (b : BitVec 32) :
    UnpackedFloat.unpack .binary32 b =
      ofParts (Sign.ofBitVec (@unpackSign .binary32 b))
        (@unpackExponent .binary32 b) (@unpackMantissa .binary32 b) := by
  unfold UnpackedFloat.unpack ofParts
  dsimp only
  split
  · rfl
  · split
    · next hzero =>
      have hpos : 0 < (@unpackMantissa .binary32 b).toNat ↔
          @unpackMantissa .binary32 b ≠ 0#23 := by
        simp [BitVec.toNat_pos, BitVec.pos_iff_ne_zero]
      by_cases hmantissa : @unpackMantissa .binary32 b = 0#23
      · rw [dif_pos hmantissa, dif_neg (mt hpos.1 (not_not.2 hmantissa))]
      · rw [dif_neg hmantissa, dif_pos (hpos.2 hmantissa), hzero]
        rfl
    · exact finite_congr (toNat_one_append _) rfl

/-- What is unpacked after parts have been packed. -/
theorem unpack_packComponents (s : Sign) (exponent : BitVec 8) (mantissa : BitVec 23) :
    UnpackedFloat.unpack .binary32 (packComponents .binary32 s exponent mantissa) =
      ofParts s exponent mantissa := by
  rw [unpack_eq_ofParts, unpackSign_packComponents, Sign.ofBitVec_toBitVec,
    unpackExponent_packComponents, unpackMantissa_packComponents]

/-- What is zero, infinite or no number is packed as it is. -/
theorem unpack_pack_zero (s : Sign) : (Float32.Model.pack (.zero s)).unpack = .zero s :=
  unpack_packComponents s 0#8 0#23

theorem unpack_pack_infinity (s : Sign) :
    (Float32.Model.pack (.infinity s)).unpack = .infinity s :=
  unpack_packComponents s (-1#8) 0#23

theorem unpack_pack_notANumber : (Float32.Model.pack .notANumber).unpack = .notANumber :=
  unpack_packComponents .positive (-1#8) (1#23 <<< 22)

/-- A mantissa and an exponent that a number may have: the mantissa has 24 bits, or fewer at the
least exponent. -/
structure Regular (m : ℕ) (e : ℤ) : Prop where
  pos : 0 < m
  lt : m < 2 ^ 24
  least : -149 ≤ e
  full : 2 ^ 23 ≤ m ∨ e = -149

/-- What is unpacked is regular and not too large. -/
theorem regular_of_unpack {hm : 0 < m} (h : x.toModel.unpack = .finite s m e hm) :
    Regular m e ∧ e ≤ 104 := by
  rw [Float32.Model.unpack, unpack_eq_ofParts] at h
  generalize @unpackExponent .binary32 x.toModel.toBits.toBitVec = exponent at h
  generalize @unpackMantissa .binary32 x.toModel.toBits.toBitVec = mantissa at h
  have hmantissa : mantissa.toNat < 2 ^ 23 := mantissa.isLt
  have hexponent : exponent.toNat < 2 ^ 8 := exponent.isLt
  unfold ofParts at h
  split at h
  · split at h <;> cases h
  · next hall =>
    have hall : exponent.toNat ≠ 255 := fun heq => hall (BitVec.eq_of_toNat_eq heq)
    split at h
    · split at h
      · cases h
        exact ⟨⟨hm, by omega, by decide, .inr rfl⟩, by decide⟩
      · cases h
    · next hnone =>
      have hnone : exponent.toNat ≠ 0 := fun heq => hnone (BitVec.eq_of_toNat_eq heq)
      cases h
      exact ⟨⟨by omega, by omega, by omega, .inl (by omega)⟩, by omega⟩

/-- The parts of a number with a full mantissa. -/
theorem ofParts_full {exponent : BitVec 8} {mantissa : BitVec 23} (hpos : 0 < exponent.toNat)
    (hlt : exponent.toNat < 255) :
    ofParts s exponent mantissa = .finite s (2 ^ 23 + mantissa.toNat) (exponent.toNat - 150)
      (Nat.add_pos_left (by decide) _) := by
  have hall : exponent ≠ -1#8 := by
    rintro rfl
    exact absurd hlt (by decide)
  have hnone : exponent ≠ 0#8 := by
    rintro rfl
    exact absurd hpos (by decide)
  rw [ofParts, if_neg hall, if_neg hnone]

/-- A regular number is packed as it is, unless it is too large. -/
theorem unpack_pack (h : Regular m e) (hm : 0 < m) :
    (Float32.Model.pack (.finite s m e hm)).unpack =
      if e ≤ 104 then .finite s m e hm else .infinity s := by
  obtain ⟨-, hlt, hleast, hfull⟩ := h
  have hbias : ((Format.exponentBias .binary32 : ℕ) : ℤ) = 127 := rfl
  have hbits : Format.mantissaBits .binary32 = 24 := rfl
  have hwidth : ((23 : ℕ) : ℤ) = 23 := rfl
  show UnpackedFloat.unpack .binary32 (UnpackedFloat.pack .binary32 (.finite s m e hm)) = _
  unfold UnpackedFloat.pack
  dsimp only
  rw [hbias, hbits, hwidth]
  by_cases hlarge : 104 < e
  · rw [if_pos (by omega), if_neg (by omega), packedInfinity, unpack_packComponents]
    rfl
  · rw [if_neg (by omega), if_pos (show e ≤ 104 by omega)]
    by_cases hnormal : 2 ^ 23 ≤ m
    · have hlog : m.log2 = 23 := (Nat.log2_eq_iff hm.ne').2 ⟨hnormal, hlt⟩
      have hexponent : (BitVec.ofNat 8 (e + 127 + 23).toNat).toNat = (e + 150).toNat := by
        rw [BitVec.toNat_ofNat]
        omega
      have hmantissa : 2 ^ 23 + (BitVec.ofNat 23 m).toNat = m := by
        rw [BitVec.toNat_ofNat]
        omega
      rw [if_pos (by omega), unpack_packComponents, ofParts_full (by omega) (by omega)]
      exact finite_congr hmantissa (by omega)
    · have hlog : m.log2 < 23 := (Nat.log2_lt hm.ne').2 (by omega)
      have hmantissa : (BitVec.ofNat 23 m).toNat = m := by
        rw [BitVec.toNat_ofNat]
        omega
      obtain rfl : e = -149 := hfull.resolve_left hnormal
      rw [if_neg (by omega), unpack_packComponents, ofParts, if_neg (by decide), if_pos rfl,
        dif_pos (by omega)]
      exact finite_congr hmantissa rfl

/-! ## Rounding -/

/-- Bits are dropped by dividing. -/
theorem mantissa_shiftRight (a : ExtendedMantissa) (k : ℕ) :
    (a >>> k).mantissa = a.mantissa / 2 ^ k := by
  induction k with
  | zero => exact (Nat.div_one _).symm
  | succ k ih =>
    show (a >>> k).mantissa / 2 = _
    rw [ih, Nat.div_div_eq_div_mul, Nat.pow_succ]

/-- Rounding adds at most one. -/
theorem roundedMantissa_bounds (a : ExtendedMantissa) :
    a.mantissa ≤ a.roundedMantissa ∧ a.roundedMantissa ≤ a.mantissa + 1 := by
  obtain ⟨mantissa, _ | _, _ | _⟩ := a <;>
    simp only [ExtendedMantissa.roundedMantissa, ExtendedMantissa.accuracy,
      Accuracy.roundToNearestEven] <;> omega

/-- The exponent that a number is rounded to. -/
theorem targetExponent_eq (m : ℕ) (e : ℤ) :
    Format.targetExponent .binary32 (totalExponent m e) = Max.max (m.log2 + e - 23) (-149) := by
  have hbits : Format.mantissaBits .binary32 = 24 := rfl
  have hleast : Format.minExponent .binary32 = -149 := rfl
  rw [Format.targetExponent, totalExponent, hbits, hleast]
  omega

/-- What has few bits keeps them. -/
theorem shiftToTargetExponent_of_lt (hm : m < 2 ^ 24) (he : -149 ≤ e) :
    shiftToTargetExponent .binary32 m e .exact = (⟨m, false, false⟩, e) := by
  have hlog : m.log2 < 24 := by
    rcases Nat.eq_zero_or_pos m with rfl | hpos
    · decide
    · exact (Nat.log2_lt hpos.ne').2 hm
  have hshift : (Max.max ((m.log2 : ℤ) + e - 23) (-149) - e).toNat = 0 := by omega
  rw [shiftToTargetExponent, targetExponent_eq, shiftToExponent, hshift]
  exact Prod.ext rfl (Int.add_zero e)

/-- What has one bit more loses it. -/
theorem shiftToTargetExponent_carry (he : -149 ≤ e) :
    shiftToTargetExponent .binary32 (2 ^ 24) e .exact = (⟨2 ^ 23, false, false⟩, e + 1) := by
  have hshift : (Max.max (((2 ^ 24 : ℕ).log2 : ℤ) + e - 23) (-149) - e).toNat = 1 := by
    rw [Nat.log2_two_pow]
    omega
  rw [shiftToTargetExponent, targetExponent_eq, shiftToExponent, hshift]
  rfl

/-- What is not below a regular number is rounded to no lesser exponent. -/
theorem Regular.le_exponent (h : Regular m e) (hE : E ≤ e) (hle : m * 2 ^ (e - E).toNat ≤ M) :
    M ≠ 0 ∧ e ≤ Max.max (M.log2 + E - 23) (-149) := by
  obtain ⟨hpos, -, -, hfull⟩ := h
  have hM : M ≠ 0 := by
    rintro rfl
    exact absurd hle (Nat.not_le.2 (Nat.mul_pos hpos (Nat.two_pow_pos _)))
  have hlog : m.log2 + (e - E).toNat ≤ M.log2 := by
    rw [Nat.le_log2 hM, Nat.pow_add]
    exact Nat.le_trans (Nat.mul_le_mul_right _ (Nat.log2_self_le hpos.ne')) hle
  refine ⟨hM, ?_⟩
  rcases hfull with hfull | rfl
  · have hm : 23 ≤ m.log2 := (Nat.le_log2 hpos.ne').2 hfull
    omega
  · omega

/-- Rounding does not bring a number below a regular one that it is not below. -/
theorem Regular.exists_roundWithAccuracy (s : Sign) (h : Regular m e) (hE : E ≤ e)
    (hle : m * 2 ^ (e - E).toNat ≤ M) :
    ∃ m' e' hm', roundWithAccuracy .binary32 s M E .exact = .finite s m' e' hm' ∧
      Regular m' e' ∧ (e < e' ∨ e = e' ∧ m ≤ m') := by
  obtain ⟨hM, het⟩ := h.le_exponent hE hle
  obtain ⟨hpos, -, hleast, -⟩ := h
  -- the exponent that the number is rounded to, and how many bits it loses
  obtain ⟨t, ht⟩ : ∃ t : ℤ, t = Max.max (M.log2 + E - 23) (-149) := ⟨_, rfl⟩
  obtain ⟨n, hn⟩ : ∃ n, n = (t - E).toNat := ⟨_, rfl⟩
  rw [← ht] at het
  have hfirst : shiftToTargetExponent .binary32 M E .exact =
      ((⟨M, false, false⟩ : ExtendedMantissa) >>> n, t) := by
    rw [shiftToTargetExponent, targetExponent_eq, ← ht, shiftToExponent, ← hn]
    exact Prod.ext rfl (by show E + n = t; omega)
  -- the mantissa before it is rounded
  have hupper : M / 2 ^ n < 2 ^ 24 := by
    rw [Nat.div_lt_iff_lt_mul (Nat.two_pow_pos n), ← Nat.pow_add]
    exact Nat.lt_of_lt_of_le Nat.lt_log2_self (Nat.pow_le_pow_right (by decide) (by omega))
  have hlower : 2 ^ 23 ≤ M / 2 ^ n ∨ t = -149 := by
    rcases eq_or_ne t (-149) with hmin | hmin
    · exact .inr hmin
    · left
      rw [Nat.le_div_iff_mul_le (Nat.two_pow_pos n), ← Nat.pow_add]
      exact Nat.le_trans (Nat.pow_le_pow_right (by decide) (by omega)) (Nat.log2_self_le hM)
  have hkept : e = t → m ≤ M / 2 ^ n := by
    rintro rfl
    rwa [Nat.le_div_iff_mul_le (Nat.two_pow_pos n), hn]
  obtain ⟨hdown, hup⟩ := roundedMantissa_bounds ((⟨M, false, false⟩ : ExtendedMantissa) >>> n)
  rw [mantissa_shiftRight] at hdown hup
  rw [roundWithAccuracy, hfirst]
  dsimp only at hdown hup ⊢
  generalize ((⟨M, false, false⟩ : ExtendedMantissa) >>> n).roundedMantissa = r at hdown hup ⊢
  rcases Nat.lt_or_ge r (2 ^ 24) with hsmall | hcarry
  · have hr : 0 < r := by omega
    rw [shiftToTargetExponent_of_lt hsmall (by omega)]
    dsimp only
    rw [dif_neg hr.ne']
    exact ⟨r, t, hr, rfl, ⟨hr, hsmall, by omega, by omega⟩, by omega⟩
  · obtain rfl : r = 2 ^ 24 := by omega
    rw [shiftToTargetExponent_carry (by omega)]
    exact ⟨2 ^ 23, t + 1, by decide, rfl, ⟨by decide, by decide, by omega, .inl (le_refl _)⟩,
      .inl (by omega)⟩

theorem Regular.exists_normalize (h : Regular m e) (hE : E ≤ e)
    (hle : m * 2 ^ (e - E).toNat ≤ M) :
    ∃ m' e' hm', UnpackedFloat.normalize .binary32 M E .positive = .finite .positive m' e' hm' ∧
      Regular m' e' ∧ (e < e' ∨ e = e' ∧ m ≤ m') := by
  obtain ⟨hM, het⟩ := h.le_exponent hE hle
  have hpositive : compare (M : ℤ) 0 = .gt := compare_gt_iff_gt.2 (by omega)
  have hshift : (E - Max.max (M.log2 + E - 23) (-149)).toNat = 0 := by omega
  have hround : UnpackedFloat.normalize .binary32 M E .positive =
      roundWithAccuracy .binary32 .positive M E .exact := by
    rw [UnpackedFloat.normalize, hpositive]
    dsimp only
    rw [Int.toNat_natCast, UnpackedFloat.round, targetExponent_eq, decreaseExponent, hshift]
    dsimp only
    rw [Nat.shiftLeft_zero]
    exact congrArg (roundWithAccuracy .binary32 .positive M · .exact) (Int.sub_zero E)
  rw [hround]
  exact h.exists_roundWithAccuracy .positive hE hle

end Candela.Single
