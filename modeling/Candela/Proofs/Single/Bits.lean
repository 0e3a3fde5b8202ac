import Mathlib
import Candela.Binary.Format
import Candela.Proofs.Single.Value

/-!
# Bit patterns of single-precision numbers

A bit pattern is read in two ways, which agree: by the parts that arithmetic unpacks, and as the
content that is written and read as text (`Single.ofSingle_eq`). A finite number is a significand
and an exponent that it may have (`Single.Placed`), and its bit pattern is made of them
(`Single.toBits_of_finite`). So a number is told by its content (`Single.ofSingle_injective`).
-/

namespace Candela.Single

open Candela.Binary (Content ofSingle)
open Float.Model (Format UnpackedFloat)
open Float.Model.UnpackedFloat

variable {f : UnpackedFloat} {m n : ℕ} {e : ℤ} {negative : Bool} {x y : Float32}

/-! ## Parts -/

theorem toNat_unpackMantissa (b : BitVec 32) :
    (@unpackMantissa .binary32 b).toNat = b.toNat % 2 ^ 23 := by
  unfold unpackMantissa
  rw [BitVec.toNat_cast, BitVec.extractLsb_toNat]
  rfl

theorem toNat_unpackExponent (b : BitVec 32) :
    (@unpackExponent .binary32 b).toNat = b.toNat / 2 ^ 23 % 2 ^ 8 := by
  unfold unpackExponent
  rw [BitVec.toNat_cast, BitVec.extractLsb_toNat, Nat.shiftRight_eq_div_pow]
  rfl

theorem toNat_unpackSign (b : BitVec 32) :
    (@unpackSign .binary32 b).toNat = b.toNat / 2 ^ 31 % 2 := by
  unfold unpackSign
  rw [BitVec.toNat_cast, BitVec.extractLsb_toNat, Nat.shiftRight_eq_div_pow]
  rfl

/-- Whether a sign is that of negative numbers. -/
def isMinus : Sign → Bool
  | .negative => true
  | .positive => false

theorem isMinus_ofBitVec : ∀ b : BitVec 1, isMinus (Sign.ofBitVec b) = (b.toNat == 1) := by
  decide

/-! ## Contents -/

/-- What an unpacked number stands for. -/
def contentOf : UnpackedFloat → Content
  | .infinity s => .infinite (isMinus s)
  | .notANumber => .nan
  | .zero s => .finite (isMinus s) 0 (-149)
  | .finite s m e _ => .finite (isMinus s) m e

/-- What a bit pattern stands for, by its parts. -/
theorem single_content (n : ℕ) : Binary.single.content n =
    if n / 2 ^ 23 % 2 ^ 8 = 2 ^ 8 - 1 then
      if n % 2 ^ 23 = 0 then .infinite (n / 2 ^ 31 % 2 == 1) else .nan
    else if n / 2 ^ 23 % 2 ^ 8 = 0 then .finite (n / 2 ^ 31 % 2 == 1) (n % 2 ^ 23) (-149)
    else .finite (n / 2 ^ 31 % 2 == 1) (n % 2 ^ 23 + 2 ^ 23)
      (-149 + (n / 2 ^ 23 % 2 ^ 8 : ℕ) - 1) :=
  rfl

/-- A bit pattern stands for what is unpacked from it. -/
theorem single_content_toNat (b : BitVec 32) :
    Binary.single.content b.toNat = contentOf (UnpackedFloat.unpack .binary32 b) := by
  have exponent := toNat_unpackExponent b
  have mantissa := toNat_unpackMantissa b
  have sign : isMinus (Sign.ofBitVec (@unpackSign .binary32 b)) = (b.toNat / 2 ^ 31 % 2 == 1) := by
    rw [isMinus_ofBitVec, toNat_unpackSign]
  have all : @unpackExponent .binary32 b = -1#8 ↔ b.toNat / 2 ^ 23 % 2 ^ 8 = 2 ^ 8 - 1 := by
    rw [← exponent, ← BitVec.toNat_inj]
    rfl
  have none : @unpackExponent .binary32 b = 0#8 ↔ b.toNat / 2 ^ 23 % 2 ^ 8 = 0 := by
    rw [← exponent, ← BitVec.toNat_inj]
    rfl
  have empty : @unpackMantissa .binary32 b = 0#23 ↔ b.toNat % 2 ^ 23 = 0 := by
    rw [← mantissa, ← BitVec.toNat_inj]
    rfl
  rw [unpack_eq_ofParts, single_content]
  simp only [ofParts, all, none, empty, mantissa, exponent]
  by_cases hall : b.toNat / 2 ^ 23 % 2 ^ 8 = 2 ^ 8 - 1
  · rw [if_pos hall, if_pos hall]
    by_cases hempty : b.toNat % 2 ^ 23 = 0
    · rw [if_pos hempty, if_pos hempty, contentOf, sign]
    · rw [if_neg hempty, if_neg hempty, contentOf]
  · rw [if_neg hall, if_neg hall]
    by_cases hnone : b.toNat / 2 ^ 23 % 2 ^ 8 = 0
    · rw [if_pos hnone, if_pos hnone]
      by_cases hpos : 0 < b.toNat % 2 ^ 23
      · rw [dif_pos hpos, contentOf, sign]
      · rw [dif_neg hpos, contentOf, sign, Nat.eq_zero_of_not_pos hpos]
    · rw [if_neg hnone, if_neg hnone, contentOf, sign]
      congr 1 <;> omega

/-- A number stands for what is unpacked from it. -/
theorem ofSingle_eq (x : Float32) : ofSingle x = contentOf x.toModel.unpack :=
  single_content_toNat x.toModel.toBits.toBitVec

theorem contentOf_isFinite :
    f.isFinite = true ↔ ∃ negative m e, contentOf f = .finite negative m e := by
  cases f with
  | infinity | notANumber => exact iff_of_false nofun nofun
  | zero | finite => exact iff_of_true rfl ⟨_, _, _, rfl⟩

/-- What is finite has a significand and an exponent. -/
theorem isFinite_iff : x.isFinite = true ↔ ∃ negative m e, ofSingle x = .finite negative m e := by
  rw [ofSingle_eq]
  exact contentOf_isFinite

/-! ## Patterns -/

/-- A significand and an exponent that a finite number may have. -/
structure Placed (m : ℕ) (e : ℤ) : Prop where
  lt : m < 2 ^ 24
  least : -149 ≤ e
  greatest : e ≤ 104
  full : 2 ^ 23 ≤ m ∨ e = -149

theorem Placed.significand_le (h : Placed m e) : (m : ℚ) ≤ 2 ^ 24 - 1 := by
  have cast : ((m + 1 : ℕ) : ℚ) ≤ (2 ^ 24 : ℕ) := Nat.cast_le.2 h.lt
  push_cast at cast
  linarith

/-- The pattern of a finite number without its sign. -/
def pattern (m : ℕ) (e : ℤ) : ℕ := (e + 149).toNat * 2 ^ 23 + m

/-- It is less than that of infinity. -/
theorem Placed.pattern_lt (h : Placed m e) : pattern m e < Binary.single.infinityBits := by
  have infinityBits : Binary.single.infinityBits = 255 * 2 ^ 23 := rfl
  obtain ⟨lt, least, greatest, full⟩ := h
  rw [infinityBits, pattern]
  omega

/-- A word is its sign and the rest. -/
theorem eq_withSign (h : n < 2 ^ 32) :
    n = Binary.single.withSign (n / 2 ^ 31 % 2 == 1) (n % 2 ^ 31) := by
  have signBit : Binary.single.signBit = 2 ^ 31 := rfl
  rw [Binary.Format.withSign, signBit]
  split
  next minus =>
    have := beq_iff_eq.1 minus
    omega
  next plus =>
    have := mt beq_iff_eq.2 plus
    omega

/-- A finite number has the pattern of its significand and its exponent. -/
theorem toBits_of_finite (h : ofSingle x = .finite negative m e) :
    x.toBits.toNat = Binary.single.withSign negative (pattern m e) ∧ Placed m e := by
  have word := eq_withSign x.toBits.toNat_lt
  rw [ofSingle, single_content] at h
  generalize x.toBits.toNat = n at h word
  split at h
  · split at h <;> cases h
  · split at h <;> cases h
    · have rest : n % 2 ^ 31 = pattern (n % 2 ^ 23) (-149) := by
        rw [pattern]
        omega
      exact ⟨rest ▸ word, by omega, by omega, by omega, .inr rfl⟩
    · have rest : n % 2 ^ 31
          = pattern (n % 2 ^ 23 + 2 ^ 23) (-149 + (n / 2 ^ 23 % 2 ^ 8 : ℕ) - 1) := by
        rw [pattern]
        omega
      exact ⟨rest ▸ word, by omega, by omega, by omega, .inl (by omega)⟩

/-- Infinity has the pattern of infinity. -/
theorem toBits_of_infinite (h : ofSingle x = .infinite negative) :
    x.toBits.toNat = Binary.single.withSign negative Binary.single.infinityBits := by
  have word := eq_withSign x.toBits.toNat_lt
  have infinityBits : Binary.single.infinityBits = 255 * 2 ^ 23 := rfl
  rw [ofSingle, single_content] at h
  generalize x.toBits.toNat = n at h word
  split at h
  · split at h <;> cases h
    have rest : n % 2 ^ 31 = Binary.single.infinityBits := by omega
    exact rest ▸ word
  · split at h <;> cases h

/-- What is no number is one thing. -/
theorem ofSingle_eq_nan : ofSingle x = .nan ↔ x = Float32.nan := by
  have unpacked : ofSingle x = .nan ↔ x.isNaN = true := by
    rw [ofSingle_eq]
    show _ ↔ x.toModel.unpack.isNaN = true
    cases x.toModel.unpack with
    | notANumber => exact iff_of_true rfl rfl
    | infinity | zero | finite => exact iff_of_false nofun nofun
  rw [unpacked, Float32.isNaN_eq_decide_eq_nan, decide_eq_true_iff]

/-- Numbers that stand for the same are the same. -/
theorem ofSingle_injective (h : ofSingle x = ofSingle y) : x = y := by
  rcases hx : ofSingle x with ⟨negative, m, e⟩ | negative | _
  · exact Float32.toBits_inj.1 (UInt32.toNat_inj.1
      ((toBits_of_finite hx).1.trans (toBits_of_finite (h.symm.trans hx)).1.symm))
  · exact Float32.toBits_inj.1 (UInt32.toNat_inj.1
      ((toBits_of_infinite hx).trans (toBits_of_infinite (h.symm.trans hx)).symm))
  · rw [ofSingle_eq_nan.1 hx, ofSingle_eq_nan.1 (h.symm.trans hx)]

end Candela.Single
