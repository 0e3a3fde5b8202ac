import Candela.Proofs.Single.Rounding

/-!
# Signs of sums and products

Counts, and sums and products of numbers that are not negative, are not negative; nor is the
difference of a number and one that is not greater. What is no number counts as not negative, so
nothing is asked of how large the numbers are. Adding something that is not negative makes no number
less (`Single.le_add`).
-/

namespace Candela.Single

open Float.Model (Format UnpackedFloat)
open Float.Model.UnpackedFloat

variable {m m' : ℕ} {e e' : ℤ} {f g : UnpackedFloat} {x y : Float32}

/-! ## Signs -/

/-- No number, or one that is not negative. A zero may have any sign. -/
inductive NotNegative : UnpackedFloat → Prop where
  | notANumber : NotNegative .notANumber
  | infinity : NotNegative (.infinity .positive)
  | zero (s : Sign) : NotNegative (.zero s)
  | finite (m : ℕ) (e : ℤ) (hm : 0 < m) : NotNegative (.finite .positive m e hm)

theorem rank?_zero : rank? 0 = some (toLex (0, toLex (0, 0))) := by decide +kernel

/-- What is not below zero. -/
theorem not_lt_zero_iff : ¬ x < 0 ↔ NotNegative x.toModel.unpack := by
  rw [lt_iff, rank?_zero, rank?]
  generalize x.toModel.unpack = f
  constructor
  · intro h
    rcases f with (_ | _) | _ | _ | ⟨_ | _, m, e, hm⟩
    case infinity.positive => exact .infinity
    case notANumber => exact .notANumber
    case zero => exact .zero _
    case finite.positive => exact .finite m e hm
    all_goals exact absurd h (by simp [unpackedRank?, Prod.Lex.toLex_lt_toLex])
  · intro h
    cases h <;> simp [unpackedRank?, Prod.Lex.toLex_lt_toLex]

/-- Packing makes no number negative. -/
theorem NotNegative.unpack_pack (h : NotNegative f) :
    NotNegative (Float32.Model.pack f).unpack := by
  have hparts (s : Sign) (exponent : BitVec 8) (mantissa : BitVec 23)
      (hs : s = .positive ∨ exponent = 0#8 ∧ mantissa = 0#23) :
      NotNegative (UnpackedFloat.unpack .binary32
        (packComponents .binary32 s exponent mantissa)) := by
    rw [unpack_packComponents]
    rcases hs with rfl | ⟨rfl, rfl⟩
    · unfold ofParts
      split_ifs
      · exact .infinity
      · exact .notANumber
      · exact .finite _ _ _
      · exact .zero _
      · exact .finite _ _ _
    · exact .zero s
  show NotNegative (UnpackedFloat.unpack .binary32 (UnpackedFloat.pack .binary32 f))
  cases h with
  | notANumber | infinity => exact hparts _ _ _ (.inl rfl)
  | zero s => exact hparts _ _ _ (.inr ⟨rfl, rfl⟩)
  | finite m e hm =>
    unfold UnpackedFloat.pack
    dsimp only
    split_ifs <;> exact hparts _ _ _ (.inl rfl)

/-- Rounding makes no number negative. -/
theorem notNegative_roundWithAccuracy (M : ℕ) (E : ℤ) (a : Accuracy) :
    NotNegative (roundWithAccuracy .binary32 .positive M E a) := by
  unfold roundWithAccuracy
  dsimp only
  split_ifs
  · exact .zero _
  · exact .finite _ _ _

theorem notNegative_normalize {M : ℤ} (h : 0 ≤ M) (E : ℤ) :
    NotNegative (UnpackedFloat.normalize .binary32 M E .positive) := by
  unfold UnpackedFloat.normalize
  split
  · next hlt => exact absurd (compare_lt_iff_lt.1 hlt) (not_lt.2 h)
  · exact .zero _
  · exact notNegative_roundWithAccuracy _ _ _

theorem NotNegative.add (hf : NotNegative f) (hg : NotNegative g) :
    NotNegative (UnpackedFloat.add .binary32 f g) := by
  cases hf with
  | notANumber => exact .notANumber
  | infinity => cases hg <;> constructor
  | zero s =>
    cases hg with
    | zero s' => cases s <;> cases s' <;> exact .zero _
    | _ => constructor
  | finite m e hm =>
    cases hg with
    | finite m' e' hm' =>
      exact notNegative_normalize (Int.add_nonneg (Int.natCast_nonneg _) (Int.natCast_nonneg _)) _
    | _ => constructor

theorem NotNegative.mul (hf : NotNegative f) (hg : NotNegative g) :
    NotNegative (UnpackedFloat.mul .binary32 f g) := by
  cases hf with
  | notANumber => exact .notANumber
  | infinity => cases hg <;> constructor
  | zero s => cases hg <;> constructor
  | finite m e hm =>
    cases hg with
    | finite m' e' hm' => exact notNegative_roundWithAccuracy _ _ _
    | _ => constructor

/-! ## Mantissas -/

/-- Numbers are ordered as their mantissas are once they have the same exponent. -/
theorem Regular.align (h : Regular m e) (h' : Regular m' e')
    (hle : e < e' ∨ e = e' ∧ m ≤ m') :
    m <<< (e - Min.min e e').toNat ≤ m' <<< (e' - Min.min e e').toNat := by
  rw [Nat.shiftLeft_eq, Nat.shiftLeft_eq]
  rcases hle with hlt | ⟨rfl, hle⟩
  · obtain ⟨n, hn⟩ : ∃ n, (e' - e).toNat = n + 1 := Nat.exists_eq_add_one_of_ne_zero (by omega)
    have hleast := h.least
    have hfull : 2 ^ 23 ≤ m' := h'.full.resolve_right (by omega)
    rw [min_eq_left hlt.le, hn, Int.sub_self, Int.toNat_zero, Nat.pow_succ]
    have hpos := Nat.two_pow_pos n
    have hlt := h.lt
    calc m * 2 ^ 0 ≤ 2 ^ 23 * 2 := by omega
      _ ≤ m' * (2 ^ n * 2) := Nat.mul_le_mul hfull (by omega)
  · exact Nat.mul_le_mul_right _ hle

/-- Which of two positive numbers is no greater. -/
theorem positive_rank_le_iff :
    toLex ((1 : ℤ), toLex (e, (m : ℤ))) ≤ toLex (1, toLex (e', (m' : ℤ))) ↔
      e < e' ∨ e = e' ∧ m ≤ m' := by
  simp [Prod.Lex.toLex_le_toLex]

/-- Which of two negative numbers is no greater. -/
theorem negative_rank_le_iff :
    toLex ((-1 : ℤ), toLex (-e', -(m' : ℤ))) ≤ toLex (-1, toLex (-e, -(m : ℤ))) ↔
      e < e' ∨ e = e' ∧ m ≤ m' := by
  simp [Prod.Lex.toLex_le_toLex, eq_comm]

/-! ## Operations -/

/-- The sum of numbers that are not negative is not negative. -/
theorem not_neg_add (hx : ¬ x < 0) (hy : ¬ y < 0) : ¬ x + y < 0 := by
  rw [not_lt_zero_iff] at hx hy ⊢
  exact (hx.add hy).unpack_pack

/-- The product of numbers that are not negative is not negative. -/
theorem not_neg_mul (hx : ¬ x < 0) (hy : ¬ y < 0) : ¬ x * y < 0 := by
  rw [not_lt_zero_iff] at hx hy ⊢
  exact (hx.mul hy).unpack_pack

/-- Counts are not negative. -/
theorem not_neg_ofNat (n : ℕ) : ¬ Float32.ofNat n < 0 := by
  have hword : ¬ n.toUInt64.toFloat32 < 0 := by
    rw [not_lt_zero_iff]
    show NotNegative (Float32.Model.pack (UnpackedFloat.ofUInt64 .binary32 n.toUInt64)).unpack
    exact (notNegative_normalize (Int.natCast_nonneg n.toUInt64.toNat) 0).unpack_pack
  show ¬ Float32.ofScientific n false 0 < 0
  simp only [Float32.ofScientific, Bool.false_eq_true, if_false]
  split
  · have hone : ¬ Float32.ofBits 0x3F800000 < 0 := by decide +kernel
    exact not_neg_mul hword hone
  · rw [not_lt_zero_iff]
    refine NotNegative.unpack_pack (f := UnpackedFloat.ofScientific .binary32 n (Int.ofNat 0)) ?_
    unfold UnpackedFloat.ofScientific
    split_ifs
    · exact .zero _
    · exact .infinity
    · exact .zero _
    · exact (NotNegative.finite _ _ _).mul (.finite _ _ _)
    · next hneg => exact absurd (Int.natCast_nonneg 0) hneg

/-- The difference of a number and one that is not greater is not negative. -/
theorem not_neg_sub (h : ¬ x < y) : ¬ x - y < 0 := by
  rw [not_lt_zero_iff]
  refine NotNegative.unpack_pack (f := UnpackedFloat.sub .binary32 _ _) ?_
  rw [lt_iff, rank?, rank?] at h
  rcases hx : x.toModel.unpack with (_ | _) | _ | _ | ⟨_ | _, m, e, hm⟩ <;>
    rcases hy : y.toModel.unpack with (_ | _) | _ | _ | ⟨_ | _, m', e', hm'⟩ <;>
    rw [hx, hy] at h
  case zero.zero s s' => cases s <;> cases s' <;> exact .zero _
  case finite.positive.finite.positive =>
    have hle := positive_rank_le_iff.1 (not_lt.1 fun hlt => h ⟨_, _, rfl, rfl, hlt⟩)
    have halign := (regular_of_unpack hy).1.align (regular_of_unpack hx).1 hle
    rw [min_comm] at halign
    exact notNegative_normalize (Int.sub_nonneg_of_le (Int.ofNat_le.2 halign)) _
  case finite.positive.finite.negative =>
    refine notNegative_normalize (Int.sub_nonneg_of_le ?_) _
    exact Int.le_trans (Int.neg_nonpos_of_nonneg (Int.natCast_nonneg _)) (Int.natCast_nonneg _)
  case finite.negative.finite.negative =>
    have hle := negative_rank_le_iff.1 (not_lt.1 fun hlt => h ⟨_, _, rfl, rfl, hlt⟩)
    have halign := (regular_of_unpack hx).1.align (regular_of_unpack hy).1 hle
    refine notNegative_normalize (Int.sub_nonneg_of_le ?_) _
    exact Int.neg_le_neg (Int.ofNat_le.2 halign)
  all_goals first
    | exact .notANumber
    | exact .infinity
    | exact .finite _ _ _
    | exact absurd h (by simp [unpackedRank?, Prod.Lex.toLex_lt_toLex])

theorem rank_pack_notANumber :
    unpackedRank? (Float32.Model.pack .notANumber).unpack = none := by
  rw [unpack_pack_notANumber]
  rfl

theorem rank_pack_infinity : unpackedRank? (Float32.Model.pack (.infinity .positive)).unpack =
    some (toLex (2, toLex (0, 0))) := by
  rw [unpack_pack_infinity]
  rfl

/-- The sum of two positive numbers is no less than the first one. -/
theorem Regular.rank_le_add (h : Regular m e) (hm : 0 < m) (hm' : 0 < m')
    {q : ℤ ×ₗ ℤ ×ₗ ℤ} (hq : unpackedRank? (Float32.Model.pack (UnpackedFloat.add .binary32
      (.finite .positive m e hm) (.finite .positive m' e' hm'))).unpack = some q) :
    toLex (1, toLex (e, (m : ℤ))) ≤ q := by
  have hle : m * 2 ^ (e - Min.min e e').toNat ≤
      m <<< (e - Min.min e e').toNat + m' <<< (e' - Min.min e e').toNat := by
    rw [Nat.shiftLeft_eq]
    exact Nat.le_add_right _ _
  obtain ⟨m₁, e₁, hm₁, hround, hregular, hle⟩ := h.exists_normalize (min_le_left e e') hle
  have hadd : UnpackedFloat.add .binary32 (.finite .positive m e hm) (.finite .positive m' e' hm') =
      .finite .positive m₁ e₁ hm₁ := hround
  rw [hadd, unpack_pack hregular] at hq
  split at hq
  · exact Option.some.inj hq ▸ positive_rank_le_iff.2 hle
  · exact Option.some.inj hq ▸ Prod.Lex.toLex_le_toLex.2 (.inl (show (1 : ℤ) < 2 by decide))

/-- A sum is no less than its first part, if neither part is negative. -/
theorem le_add (hx : ¬ x < 0) (hy : ¬ y < 0) (hsum : (x + y).isNaN = false) : x ≤ x + y := by
  obtain ⟨q, hq⟩ := isNaN_eq_false_iff.1 hsum
  suffices hle : ∃ p, rank? x = some p ∧ p ≤ q by
    obtain ⟨p, hp, hpq⟩ := hle
    exact le_iff.2 ⟨p, q, hp, hq, hpq⟩
  have hnonneg : toLex (0, toLex (0, 0)) ≤ q := by
    by_contra hlt
    exact not_neg_add hx hy (lt_iff.2 ⟨q, _, hq, rank?_zero, not_le.1 hlt⟩)
  have hfinite {m : ℕ} {e : ℤ} {hm : 0 < m} (h : x.toModel.unpack = .finite .positive m e hm) :
      Regular m e ∧ e ≤ 104 := regular_of_unpack h
  change unpackedRank? (Float32.Model.pack
    (UnpackedFloat.add .binary32 x.toModel.unpack y.toModel.unpack)).unpack = some q at hq
  rw [not_lt_zero_iff] at hx hy
  rw [rank?]
  generalize x.toModel.unpack = f at *
  generalize y.toModel.unpack = g at *
  cases hx with
  | notANumber => cases rank_pack_notANumber.symm.trans hq
  | infinity =>
    cases hy with
    | notANumber => cases rank_pack_notANumber.symm.trans hq
    | _ => exact ⟨_, rfl, (Option.some.inj (rank_pack_infinity.symm.trans hq)).le⟩
  | zero s => exact ⟨_, rfl, hnonneg⟩
  | finite m e hm =>
    obtain ⟨hregular, hsmall⟩ := hfinite rfl
    refine ⟨toLex (1, toLex (e, m)), rfl, ?_⟩
    cases hy with
    | notANumber => cases rank_pack_notANumber.symm.trans hq
    | infinity =>
      rw [← Option.some.inj (rank_pack_infinity.symm.trans hq)]
      exact Prod.Lex.toLex_le_toLex.2 (.inl (show (1 : ℤ) < 2 by decide))
    | zero s =>
      have hsame :
          unpackedRank? (Float32.Model.pack (.finite .positive m e hm)).unpack = some q := hq
      rw [unpack_pack hregular, if_pos hsmall] at hsame
      exact (Option.some.inj hsame).le
    | finite m' e' hm' => exact hregular.rank_le_add hm hm' hq

end Candela.Single
