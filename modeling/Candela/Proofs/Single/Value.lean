import Candela.Proofs.Single.Correct
import Candela.Proofs.Single.Sign

/-!
# Values of single-precision numbers

A finite number that is not negative has a rational value (`Single.Denotes`), and numbers are
ordered as their values are (`Single.Denotes.lt_iff`). A sum, a difference, a product or a quotient
has the value that is nearest to the exact one, unless that is too large (`Single.Denotes.add`,
`Single.Denotes.sub`, `Single.Denotes.mul`, `Single.Denotes.div`); then it is infinite. The parts of
a finite sum are finite themselves (`Single.Denotes.of_add`).
-/

namespace Candela.Single

open Float.Model (Format UnpackedFloat)
open Float.Model.UnpackedFloat

variable {m m' : ℕ} {e e' : ℤ} {f g : UnpackedFloat} {p q r : ℚ} {x y : Float32}

/-! ## Values -/

/-- The value of an unpacked number that is finite and not negative. -/
def unpackedValue? : UnpackedFloat → Option ℚ
  | .zero _ => some 0
  | .finite .positive m e _ => some (m * 2 ^ e)
  | _ => none

/-- A number that is finite and not negative, and its value. -/
def Denotes (x : Float32) (q : ℚ) : Prop := unpackedValue? x.toModel.unpack = some q

/-- Positive infinity. -/
def IsInfinity (x : Float32) : Prop := x.toModel.unpack = .infinity .positive

/-- No number is as large as this. -/
def limit : ℚ := 2 ^ (128 : ℤ)

theorem lt_iff_of_rank {a b : ℤ ×ₗ ℤ ×ₗ ℤ} (hx : rank? x = some a) (hy : rank? y = some b) :
    x < y ↔ a < b := by
  simp [Single.lt_iff, hx, hy]

theorem Regular.representable (h : Regular m e) : Representable (m * 2 ^ e) :=
  ⟨m, e, h.lt, h.least, rfl⟩

theorem Regular.value_pos (h : Regular m e) : (0 : ℚ) < m * 2 ^ e :=
  mul_pos (Nat.cast_pos.2 h.pos) (two_zpow_pos e)

/-- Which numbers are too large. -/
theorem Regular.lt_limit_iff (h : Regular m e) : (m * 2 ^ e : ℚ) < limit ↔ e ≤ 104 := by
  have hm : (m : ℚ) < 2 ^ (24 : ℤ) := by exact_mod_cast h.lt
  constructor
  · contrapose!
    intro he
    have hfull : (2 : ℚ) ^ (23 : ℤ) ≤ m := by exact_mod_cast h.full.resolve_right (by omega)
    calc limit ≤ 2 ^ (23 + e) := two_zpow_le (by omega)
      _ = 2 ^ (23 : ℤ) * 2 ^ e := zpow_add₀ two_ne_zero _ _
      _ ≤ m * 2 ^ e := mul_le_mul_of_nonneg_right hfull (two_zpow_pos e).le
  · intro he
    calc (m * 2 ^ e : ℚ) < 2 ^ (24 : ℤ) * 2 ^ e := mul_lt_mul_of_pos_right hm (two_zpow_pos e)
      _ = 2 ^ (24 + e) := (zpow_add₀ two_ne_zero _ _).symm
      _ ≤ limit := two_zpow_le (by omega)

/-- The greater of two numbers in the order has the greater value. -/
theorem Regular.value_lt (h : Regular m e) (h' : Regular m' e') (hlt : e < e' ∨ e = e' ∧ m < m') :
    (m * 2 ^ e : ℚ) < m' * 2 ^ e' := by
  rcases hlt with hlt | ⟨rfl, hlt⟩
  · have hleast := h.least
    have hm : (m : ℚ) < 2 ^ (24 : ℤ) := by exact_mod_cast h.lt
    have hfull : (2 : ℚ) ^ (23 : ℤ) ≤ m' := by exact_mod_cast h'.full.resolve_right (by omega)
    calc (m * 2 ^ e : ℚ) < 2 ^ (24 : ℤ) * 2 ^ e := mul_lt_mul_of_pos_right hm (two_zpow_pos e)
      _ = 2 ^ (24 + e) := (zpow_add₀ two_ne_zero _ _).symm
      _ ≤ 2 ^ (23 + e') := two_zpow_le (by omega)
      _ = 2 ^ (23 : ℤ) * 2 ^ e' := zpow_add₀ two_ne_zero _ _
      _ ≤ m' * 2 ^ e' := mul_le_mul_of_nonneg_right hfull (two_zpow_pos e').le
  · exact mul_lt_mul_of_pos_right (Nat.cast_lt.2 hlt) (two_zpow_pos e)

/-- What has a value is zero or positive. -/
theorem unpackedValue?_cases (h : unpackedValue? f = some q) :
    (∃ s, f = .zero s) ∧ q = 0 ∨ ∃ m e hm, f = .finite .positive m e hm ∧ q = m * 2 ^ e := by
  rcases f with _ | _ | s | ⟨_ | _, m, e, hm⟩ <;> try cases h
  · exact .inl ⟨⟨s, rfl⟩, rfl⟩
  · exact .inr ⟨m, e, hm, rfl, rfl⟩

namespace Denotes

theorem cases (h : Denotes x q) : (∃ s, x.toModel.unpack = .zero s) ∧ q = 0 ∨
    ∃ m e hm, x.toModel.unpack = .finite .positive m e hm ∧ q = m * 2 ^ e ∧
      Regular m e ∧ e ≤ 104 := by
  rcases unpackedValue?_cases h with hzero | ⟨m, e, hm, hx, hq⟩
  · exact .inl hzero
  · exact .inr ⟨m, e, hm, hx, hq, regular_of_unpack hx⟩

theorem unique (h : Denotes x p) (h' : Denotes x q) : p = q := Option.some.inj (h.symm.trans h')

theorem representable (h : Denotes x q) : Representable q := by
  obtain ⟨-, rfl⟩ | ⟨m, e, hm, -, rfl, hregular, -⟩ := h.cases
  · exact .zero
  · exact hregular.representable

theorem nonneg (h : Denotes x q) : 0 ≤ q := h.representable.nonneg

theorem lt_limit (h : Denotes x q) : q < limit := by
  obtain ⟨-, rfl⟩ | ⟨m, e, hm, -, rfl, hregular, he⟩ := h.cases
  · exact two_zpow_pos _
  · exact hregular.lt_limit_iff.2 he

/-- The place of a number in the order of all numbers. -/
theorem rank (h : Denotes x q) : rank? x = some (toLex (0, toLex (0, 0))) ∧ q = 0 ∨
    ∃ (m : ℕ) (e : ℤ), rank? x = some (toLex (1, toLex (e, (m : ℤ)))) ∧ q = m * 2 ^ e ∧
      Regular m e := by
  obtain ⟨⟨s, hx⟩, hq⟩ | ⟨m, e, hm, hx, hq, hregular, -⟩ := h.cases
  · exact .inl ⟨by rw [rank?, hx]; rfl, hq⟩
  · exact .inr ⟨m, e, by rw [rank?, hx]; rfl, hq, hregular⟩

/-- Numbers are ordered as their values are. -/
theorem lt_iff (h : Denotes x p) (h' : Denotes y q) : x < y ↔ p < q := by
  obtain ⟨hx, rfl⟩ | ⟨m, e, hx, rfl, hregular⟩ := h.rank <;>
    obtain ⟨hy, rfl⟩ | ⟨m', e', hy, rfl, hregular'⟩ := h'.rank <;>
    rw [lt_iff_of_rank hx hy, Prod.Lex.toLex_lt_toLex]
  · simp
  · exact iff_of_true (.inl Int.one_pos) hregular'.value_pos
  · simpa using hregular.value_pos.le
  · simp only [lt_irrefl, false_or, true_and, Prod.Lex.toLex_lt_toLex, Nat.cast_lt]
    refine ⟨hregular.value_lt hregular', fun hlt => ?_⟩
    by_contra hnot
    rcases eq_or_ne (e, m) (e', m') with heq | hne
    · obtain ⟨rfl, rfl⟩ := Prod.mk.inj heq
      exact lt_irrefl _ hlt
    · refine lt_asymm hlt (hregular'.value_lt hregular ?_)
      rw [Ne, Prod.mk.injEq] at hne
      omega

theorem isNaN_eq_false (h : Denotes x q) : x.isNaN = false := by
  rw [isNaN_eq_false_iff]
  obtain ⟨hx, -⟩ | ⟨m, e, hx, -⟩ := h.rank <;> exact ⟨_, hx⟩

theorem le_iff (h : Denotes x p) (h' : Denotes y q) : x ≤ y ↔ p ≤ q := by
  rw [← not_lt_iff h'.isNaN_eq_false h.isNaN_eq_false, h'.lt_iff h, not_lt]

end Denotes

/-- What has a value is finite and not negative. -/
theorem exists_denotes_iff : (∃ q, Denotes x q) ↔ x.isFinite = true ∧ ¬ x < 0 := by
  have hfinite : x.isFinite = x.toModel.unpack.isFinite := rfl
  rw [not_lt_zero_iff, hfinite]
  unfold Denotes
  generalize x.toModel.unpack = f
  constructor
  · rintro ⟨q, hq⟩
    obtain ⟨⟨s, rfl⟩, -⟩ | ⟨m, e, hm, rfl, -⟩ := unpackedValue?_cases hq
    · exact ⟨rfl, .zero s⟩
    · exact ⟨rfl, .finite m e hm⟩
  · rintro ⟨hf, hnonneg⟩
    cases hnonneg with
    | notANumber | infinity => cases hf
    | zero s => exact ⟨0, rfl⟩
    | finite m e hm => exact ⟨_, rfl⟩

/-- Zero, or a positive number, has a value or is infinite. -/
theorem zero_le_iff : 0 ≤ x ↔ (∃ q, Denotes x q) ∨ IsInfinity x := by
  have hnan : ∀ h : x.isNaN = false, (0 ≤ x ↔ ¬ x < 0) := fun h =>
    (not_lt_iff h (isNaN_eq_false_iff.2 ⟨_, rank?_zero⟩)).symm
  constructor
  · intro hle
    have hx := (isNaN_of_le hle).2
    rw [hnan hx, not_lt_zero_iff] at hle
    unfold Denotes IsInfinity
    rw [isNaN_eq_false_iff, rank?] at hx
    generalize x.toModel.unpack = f at *
    cases hle with
    | notANumber =>
      obtain ⟨_, hp⟩ := hx
      cases hp
    | infinity => exact .inr rfl
    | zero s => exact .inl ⟨0, rfl⟩
    | finite m e hm => exact .inl ⟨_, rfl⟩
  · rintro (⟨q, hq⟩ | h)
    · exact (hnan hq.isNaN_eq_false).2 (exists_denotes_iff.1 ⟨q, hq⟩).2
    · refine (hnan (isNaN_eq_false_iff.2 ⟨_, by rw [rank?, h]; rfl⟩)).2 ?_
      rw [not_lt_zero_iff, h]
      exact .infinity

/-- Nothing is greater than infinity. -/
theorem IsInfinity.not_lt (h : IsInfinity x) : ¬ x < y := by
  intro hlt
  obtain ⟨a, b, ha, hb, hab⟩ := Single.lt_iff.1 hlt
  rw [rank?, h] at ha
  rw [rank?] at hb
  cases Option.some.inj ha
  revert hb
  rcases y.toModel.unpack with (_ | _) | _ | _ | ⟨_ | _, m, e, hm⟩ <;>
    intro hb <;> cases hb <;> revert hab <;> simp [Prod.Lex.toLex_lt_toLex]

/-- What is less than something, and not negative, is finite. -/
theorem exists_denotes_of_lt (h : 0 ≤ x) (hlt : x < y) : ∃ q, Denotes x q :=
  (zero_le_iff.1 h).resolve_right fun hinf => hinf.not_lt hlt

/-! ## Rounded numbers -/

/-- A number has the value nearest to another one, or is infinite where that is too large. -/
def Nearest (x : Float32) (q : ℚ) : Prop :=
  if nearest q < limit then Denotes x (nearest q) else IsInfinity x

theorem Nearest.denotes (h : Nearest x q) (hlt : nearest q < limit) : Denotes x (nearest q) := by
  rwa [Nearest, if_pos hlt] at h

/-- What is no greater than a number is finite. -/
theorem Nearest.denotes_of_le (h : Nearest x q) (hle : nearest q ≤ p) (hp : p < limit) :
    Denotes x (nearest q) := h.denotes (hle.trans_lt hp)

/-- What has been rounded is packed as it is, unless it is too large. -/
theorem Rounded.nearest (h : Rounded q f) (hx : x.toModel.unpack = (Float32.Model.pack f).unpack) :
    Nearest x q := by
  unfold Nearest Denotes IsInfinity
  rw [hx]
  cases h with
  | zero s h =>
    have hlimit : (0 : ℚ) < limit := two_zpow_pos _
    rw [h, if_pos hlimit, unpack_pack_zero]
    rfl
  | @finite m e hm hregular hvalue =>
    rw [hvalue, unpack_pack hregular]
    by_cases he : e ≤ 104
    · rw [if_pos (hregular.lt_limit_iff.2 he), if_pos he]
      rfl
    · rw [if_neg (mt hregular.lt_limit_iff.1 he), if_neg he]

/-- A regular number is rounded to itself. -/
theorem Regular.rounded (h : Regular m e) (hm : 0 < m) :
    Rounded (m * 2 ^ e) (.finite .positive m e hm) :=
  .finite hm h h.representable.nearest_eq_self

/-- A lesser exponent makes the mantissa longer. -/
theorem value_shiftLeft (m : ℕ) (h : e' ≤ e) :
    ((m <<< (e - e').toNat : ℕ) : ℚ) * 2 ^ e' = m * 2 ^ e := by
  have he : e = (e - e').toNat + e' := by omega
  conv_rhs => rw [he, zpow_add₀ two_ne_zero, zpow_natCast]
  rw [Nat.shiftLeft_eq]
  push_cast
  ring

/-! ## Operations -/

namespace Denotes

/-- A sum is rounded. -/
theorem add (h : Denotes x p) (h' : Denotes y q) : Nearest (x + y) (p + q) := by
  suffices hrounded : Rounded (p + q)
      (UnpackedFloat.add .binary32 x.toModel.unpack y.toModel.unpack) from hrounded.nearest rfl
  obtain ⟨⟨s, hx⟩, rfl⟩ | ⟨m, e, hm, hx, rfl, hregular, -⟩ := h.cases <;>
    obtain ⟨⟨s', hy⟩, rfl⟩ | ⟨m', e', hm', hy, rfl, hregular', -⟩ := h'.cases <;>
    rw [hx, hy]
  · rw [add_zero]
    cases s <;> cases s' <;> exact .zero _ nearest_zero
  · rw [zero_add]
    exact hregular'.rounded hm'
  · rw [add_zero]
    exact hregular.rounded hm
  · rw [← value_shiftLeft m (min_le_left e e'), ← value_shiftLeft m' (min_le_right e e'),
      ← add_mul, ← Nat.cast_add]
    refine rounded_normalize (Nat.add_pos_left ?_ _) _
    rw [Nat.shiftLeft_eq]
    exact Nat.mul_pos hm (Nat.two_pow_pos _)

/-- The difference of a number and one that is not greater is rounded. -/
theorem sub (h : Denotes x p) (h' : Denotes y q) (hle : q ≤ p) : Nearest (x - y) (p - q) := by
  suffices hrounded : Rounded (p - q)
      (UnpackedFloat.sub .binary32 x.toModel.unpack y.toModel.unpack) from hrounded.nearest rfl
  obtain ⟨⟨s, hx⟩, rfl⟩ | ⟨m, e, hm, hx, rfl, hregular, -⟩ := h.cases <;>
    obtain ⟨⟨s', hy⟩, rfl⟩ | ⟨m', e', hm', hy, rfl, hregular', -⟩ := h'.cases <;>
    rw [hx, hy]
  · rw [sub_zero]
    cases s <;> cases s' <;> exact .zero _ nearest_zero
  · exact absurd hregular'.value_pos (not_lt.2 hle)
  · rw [sub_zero]
    exact hregular.rounded hm
  · rw [← value_shiftLeft m (min_le_left e e'), ← value_shiftLeft m' (min_le_right e e')] at hle ⊢
    have hle : m' <<< (e' - Min.min e e').toNat ≤ m <<< (e - Min.min e e').toNat :=
      Nat.cast_le.1 (le_of_mul_le_mul_right hle (two_zpow_pos _))
    rw [← sub_mul, ← Nat.cast_sub hle]
    show Rounded _ (UnpackedFloat.normalize .binary32 ((m <<< (e - Min.min e e').toNat : ℕ) -
      (m' <<< (e' - Min.min e e').toNat : ℕ)) (Min.min e e') .positive)
    rw [← Int.ofNat_sub hle]
    rcases Nat.eq_zero_or_pos
      (m <<< (e - Min.min e e').toNat - m' <<< (e' - Min.min e e').toNat) with hzero | hpos
    · rw [hzero, Nat.cast_zero, zero_mul]
      exact .zero _ nearest_zero
    · exact rounded_normalize hpos _

/-- A product is rounded. -/
theorem mul (h : Denotes x p) (h' : Denotes y q) : Nearest (x * y) (p * q) := by
  suffices hrounded : Rounded (p * q)
      (UnpackedFloat.mul .binary32 x.toModel.unpack y.toModel.unpack) from hrounded.nearest rfl
  obtain ⟨⟨s, hx⟩, rfl⟩ | ⟨m, e, hm, hx, rfl, hregular, -⟩ := h.cases <;>
    obtain ⟨⟨s', hy⟩, rfl⟩ | ⟨m', e', hm', hy, rfl, hregular', -⟩ := h'.cases <;>
    rw [hx, hy]
  · rw [mul_zero]
    exact .zero _ nearest_zero
  · rw [zero_mul]
    exact .zero _ nearest_zero
  · rw [mul_zero]
    exact .zero _ nearest_zero
  · exact hregular.rounded_mul hregular'

/-- A quotient is rounded. -/
theorem div (h : Denotes x p) (h' : Denotes y q) (hq : 0 < q) : Nearest (x / y) (p / q) := by
  suffices hrounded : Rounded (p / q)
      (UnpackedFloat.div .binary32 x.toModel.unpack y.toModel.unpack) from hrounded.nearest rfl
  obtain ⟨⟨s, hx⟩, rfl⟩ | ⟨m, e, hm, hx, rfl, -⟩ := h.cases <;>
    obtain ⟨⟨s', hy⟩, rfl⟩ | ⟨m', e', hm', hy, rfl, -⟩ := h'.cases <;>
    rw [hx, hy]
  · exact absurd hq (lt_irrefl 0)
  · rw [zero_div]
    exact .zero _ nearest_zero
  · exact absurd hq (lt_irrefl 0)
  · exact rounded_div hm hm' e e'

end Denotes

/-- A count is rounded. -/
theorem nearest_ofNat (n : ℕ) : Nearest (Float32.ofNat n) n := by
  have hword (n : ℕ) (hn : n < 2 ^ 23) : Nearest n.toUInt64.toFloat32 n := by
    have hsame : n.toUInt64.toNat = n := Nat.mod_eq_of_lt (by omega)
    suffices hrounded : Rounded n (UnpackedFloat.normalize .binary32 n 0 .positive) by
      refine hrounded.nearest ?_
      show (Float32.Model.pack
        (UnpackedFloat.normalize .binary32 n.toUInt64.toNat 0 .positive)).unpack = _
      rw [hsame]
    rcases Nat.eq_zero_or_pos n with rfl | hpos
    · exact .zero _ nearest_zero
    · simpa using rounded_normalize hpos 0
  show Nearest (Float32.ofScientific n false 0) n
  simp only [Float32.ofScientific, Bool.false_eq_true, if_false]
  split
  · next hn =>
    have hrepresentable : Representable n :=
      ⟨n, 0, by omega, by decide, by rw [zpow_zero, mul_one]⟩
    have hlimit : (n : ℚ) < limit := by
      have hle : (2 : ℚ) ^ (23 : ℕ) ≤ limit := by
        rw [← zpow_natCast]
        exact two_zpow_le (by decide)
      exact lt_of_lt_of_le (by exact_mod_cast hn.1) hle
    have hcount := hword n hn.1
    rw [Nearest, hrepresentable.nearest_eq_self, if_pos hlimit] at hcount
    have hone : Denotes (Float32.ofBits 0x3F800000) 1 := by
      unfold Denotes
      decide +kernel
    have hproduct := hcount.mul hone
    rwa [mul_one] at hproduct
  · next hn =>
    rcases Nat.eq_zero_or_pos n with rfl | hpos
    · exact absurd ⟨by decide, by decide⟩ hn
    · suffices hrounded : Rounded n (UnpackedFloat.ofScientific .binary32 n (Int.ofNat 0)) from
        hrounded.nearest rfl
      have hvalue : ((n <<< 24 * 1 : ℕ) : ℚ) * 2 ^ (-24 : ℤ) = n := by
        rw [Nat.mul_one, Nat.shiftLeft_eq, Nat.cast_mul, mul_assoc]
        norm_num
      have hsmall : ¬ Int.ofNat 0 < -((2 : ℤ) ^ Format.exponentBits .binary32 + n.log2) := by
        show ¬ (0 : ℤ) < -((2 : ℤ) ^ 8 + n.log2)
        omega
      have hproduct : UnpackedFloat.ofScientific .binary32 n (Int.ofNat 0) =
          roundWithAccuracy .binary32 .positive (n <<< 24 * 1) (-24) .exact := by
        rw [UnpackedFloat.ofScientific, dif_neg hpos.ne', if_neg (by decide), if_neg hsmall,
          if_pos (by decide)]
        rfl
      have hfull : 2 ^ 23 ≤ n <<< 24 * 1 := by
        rw [Nat.shiftLeft_eq]
        omega
      have hstands : Stands (.ofMantissaAndAccuracy (n <<< 24 * 1) .exact) (n <<< 24 * 1 : ℕ) :=
        .exact _
      have hrounded := hstands.rounded (Nat.cast_pos.2 (by omega))
        (le_lastPlace (E := -24) (.inl hfull) (by omega))
      rwa [hvalue, ← hproduct] at hrounded

theorem denotes_zero : Denotes 0 0 := by
  have hzero := (nearest_ofNat 0).denotes
  rw [Nat.cast_zero, nearest_zero] at hzero
  exact hzero (two_zpow_pos _)

theorem denotes_one : Denotes 1 1 := by
  have hone := (nearest_ofNat 1).denotes
  rw [Nat.cast_one, Representable.one.nearest_eq_self] at hone
  exact hone (one_lt_zpow₀ one_lt_two (by decide))

/-! ## Infinity -/

theorem isNaN_iff : x.isNaN = true ↔ x.toModel.unpack = .notANumber := by
  have hnan : x.isNaN = x.toModel.unpack.isNaN := rfl
  rw [hnan]
  rcases x.toModel.unpack with (_ | _) | _ | (_ | _) | ⟨_ | _, m, e, hm⟩
  case notANumber => exact iff_of_true rfl rfl
  all_goals exact iff_of_false nofun nofun

/-- What is no number stays so in a product. -/
theorem isNaN_mul (h : x.isNaN = true) (y : Float32) : (x * y).isNaN = true := by
  have hmul (g : UnpackedFloat) : UnpackedFloat.mul .binary32 .notANumber g = .notANumber := by
    cases g <;> rfl
  rw [isNaN_iff] at h ⊢
  show (Float32.Model.pack (UnpackedFloat.mul .binary32 x.toModel.unpack y.toModel.unpack)).unpack
    = _
  rw [h, hmul]
  rfl

namespace IsInfinity

theorem isFinite_eq_false (h : IsInfinity x) : x.isFinite = false := by
  show x.toModel.unpack.isFinite = false
  rw [h]
  rfl

theorem zero_lt (h : IsInfinity x) : 0 < x := by
  rw [Single.lt_iff]
  exact ⟨_, toLex (2, toLex (0, 0)), rank?_zero, by rw [rank?, h]; rfl,
    Prod.Lex.toLex_lt_toLex.2 (.inl (by decide))⟩

/-- A sum with infinity. -/
theorem add (hx : 0 ≤ x) (hy : 0 ≤ y) (h : IsInfinity x ∨ IsInfinity y) : IsInfinity (x + y) := by
  have hpacked := unpack_pack_infinity .positive
  show (Float32.Model.pack (UnpackedFloat.add .binary32 x.toModel.unpack y.toModel.unpack)).unpack
    = _
  rcases zero_le_iff.1 hx with ⟨p, hp⟩ | hx
  · have hy : IsInfinity y := h.resolve_left fun h => by
      rw [IsInfinity] at h
      obtain ⟨⟨s, hx⟩, -⟩ | ⟨m, e, hm, hx, -⟩ := hp.cases <;> cases hx.symm.trans h
    rw [hy]
    obtain ⟨⟨s, hx⟩, -⟩ | ⟨m, e, hm, hx, -⟩ := hp.cases <;> rw [hx] <;> exact hpacked
  · rw [hx]
    rcases zero_le_iff.1 hy with ⟨q, hq⟩ | hy
    · obtain ⟨⟨s, hy⟩, -⟩ | ⟨m, e, hm, hy, -⟩ := hq.cases <;> rw [hy] <;> exact hpacked
    · rw [hy]
      exact hpacked

/-- Infinity is no number of times infinity. -/
theorem isNaN_div (h : IsInfinity x) (h' : IsInfinity y) : (x / y).isNaN = true := by
  rw [isNaN_iff]
  show (Float32.Model.pack (UnpackedFloat.div .binary32 x.toModel.unpack y.toModel.unpack)).unpack
    = _
  rw [h, h']
  rfl

end IsInfinity

/-- A finite number is nothing next to infinity. -/
theorem Denotes.div_infinity (h : Denotes x q) (h' : IsInfinity y) : Denotes (x / y) 0 := by
  show unpackedValue? (Float32.Model.pack
    (UnpackedFloat.div .binary32 x.toModel.unpack y.toModel.unpack)).unpack = some 0
  have hzero (s : Sign) : unpackedValue? (Float32.Model.pack (.zero s)).unpack = some 0 := by
    rw [unpack_pack_zero]
    rfl
  rw [h']
  obtain ⟨⟨s, hx⟩, -⟩ | ⟨m, e, hm, hx, -⟩ := h.cases <;> rw [hx] <;> exact hzero _

theorem Nearest.zero_le (h : Nearest x q) : 0 ≤ x := by
  unfold Nearest at h
  split at h
  · exact zero_le_iff.2 (.inl ⟨_, h⟩)
  · exact zero_le_iff.2 (.inr h)

/-- The sum of numbers that are not negative is not negative, and a number. -/
theorem zero_le_add (hx : 0 ≤ x) (hy : 0 ≤ y) : 0 ≤ x + y := by
  rcases zero_le_iff.1 hx with ⟨p, hp⟩ | hinf
  · rcases zero_le_iff.1 hy with ⟨q, hq⟩ | hinf
    · exact (hp.add hq).zero_le
    · exact zero_le_iff.2 (.inr (.add hx hy (.inr hinf)))
  · exact zero_le_iff.2 (.inr (.add hx hy (.inl hinf)))

/-- The parts of a finite sum are finite. -/
theorem Denotes.of_add (hx : ¬ x < 0) (hy : ¬ y < 0) (h : Denotes (x + y) r) :
    ∃ p q, Denotes x p ∧ Denotes y q ∧ r = Single.nearest (p + q) := by
  have hfinite : (∃ p, Denotes x p) ∧ ∃ q, Denotes y q := by
    have hsum : unpackedValue? (Float32.Model.pack
      (UnpackedFloat.add .binary32 x.toModel.unpack y.toModel.unpack)).unpack = some r := h
    have hnone : unpackedValue? (Float32.Model.pack .notANumber).unpack = none ∧
        unpackedValue? (Float32.Model.pack (.infinity .positive)).unpack = none := by
      rw [unpack_pack_notANumber, unpack_pack_infinity]
      exact ⟨rfl, rfl⟩
    rw [not_lt_zero_iff] at hx hy
    unfold Denotes
    generalize x.toModel.unpack = f at *
    generalize y.toModel.unpack = g at *
    cases hx with
    | notANumber => cases hnone.1.symm.trans hsum
    | infinity =>
      cases hy with
      | notANumber => cases hnone.1.symm.trans hsum
      | _ => cases hnone.2.symm.trans hsum
    | zero s =>
      cases hy with
      | notANumber => cases hnone.1.symm.trans hsum
      | infinity => cases hnone.2.symm.trans hsum
      | _ => exact ⟨⟨_, rfl⟩, ⟨_, rfl⟩⟩
    | finite m e hm =>
      cases hy with
      | notANumber => cases hnone.1.symm.trans hsum
      | infinity => cases hnone.2.symm.trans hsum
      | _ => exact ⟨⟨_, rfl⟩, ⟨_, rfl⟩⟩
  obtain ⟨⟨p, hp⟩, q, hq⟩ := hfinite
  have hadd := hp.add hq
  unfold Nearest at hadd
  split at hadd
  · exact ⟨p, q, hp, hq, h.unique hadd⟩
  · have hnone : unpackedValue? (x + y).toModel.unpack = none := by rw [hadd]; rfl
    cases hnone.symm.trans h

end Candela.Single
