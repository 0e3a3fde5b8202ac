import Mathlib.Data.Prod.Lex
import Candela.Single

/-!
# The order of single-precision numbers

A number is compared by its sign, then by its exponent and then by its mantissa, those of a negative
one the other way round. `Single.rank?` is the place that a number has in this linear order, both
zeros having the same one; what is no number has none (`Single.isNaN_eq_false_iff`). What is less
has a lesser place (`Single.lt_iff`, `Single.le_iff`).
-/

namespace Candela.Single

open Float.Model (UnpackedFloat)

/-! ## Unpacked numbers -/

/-- The place of an unpacked number in the order of all of them. -/
def unpackedRank? : UnpackedFloat → Option (ℤ ×ₗ ℤ ×ₗ ℤ)
  | .notANumber => none
  | .infinity .negative => some (toLex (-2, toLex (0, 0)))
  | .finite .negative mantissa exponent _ => some (toLex (-1, toLex (-exponent, -mantissa)))
  | .zero _ => some (toLex (0, toLex (0, 0)))
  | .finite .positive mantissa exponent _ => some (toLex (1, toLex (exponent, mantissa)))
  | .infinity .positive => some (toLex (2, toLex (0, 0)))

theorem compare_neg (m n : ℤ) : compare (-m) (-n) = (compare m n).swap := by
  rcases lt_trichotomy m n with h | rfl | h
  · rw [compare_lt_iff_lt.2 h]
    exact compare_gt_iff_gt.2 (Int.neg_lt_neg h)
  · simp
  · rw [compare_gt_iff_gt.2 h]
    exact compare_lt_iff_lt.2 (Int.neg_lt_neg h)

theorem compare_natCast (m n : ℕ) : compare (m : ℤ) (n : ℤ) = compare m n := by
  rcases lt_trichotomy m n with h | rfl | h
  · rw [compare_lt_iff_lt.2 h]
    exact compare_lt_iff_lt.2 (Int.ofNat_lt.2 h)
  · simp
  · rw [compare_gt_iff_gt.2 h]
    exact compare_gt_iff_gt.2 (Int.ofNat_lt.2 h)

/-- Unpacked numbers are compared by their places. -/
theorem unpacked_compare_eq (a b : UnpackedFloat) :
    a.compare b = (unpackedRank? a).bind fun p => (unpackedRank? b).map fun q => compare p q := by
  rcases a with (_ | _) | _ | (_ | _) | ⟨_ | _, m, e, hm⟩ <;>
    rcases b with (_ | _) | _ | (_ | _) | ⟨_ | _, m', e', hm'⟩
  case finite.positive.finite.positive =>
    show some ((compare e e').then (compare m m')) =
      some ((compare (1 : ℤ) 1).then ((compare e e').then (compare (m : ℤ) m')))
    rw [compare_natCast]
    rfl
  case finite.negative.finite.negative =>
    show some ((compare e e').then (compare m m')).swap =
      some ((compare (-1 : ℤ) (-1)).then ((compare (-e) (-e')).then (compare (-m : ℤ) (-m'))))
    rw [compare_neg e, compare_neg m, compare_natCast, Ordering.swap_then]
    rfl
  all_goals rfl

/-! ## Packed numbers -/

/-- The place of a number in the order. -/
def rank? (x : Float32) : Option (ℤ ×ₗ ℤ ×ₗ ℤ) := unpackedRank? x.toModel.unpack

variable {x y z : Float32}

/-- Numbers are compared by their places. -/
theorem lt_iff : x < y ↔ ∃ p q, rank? x = some p ∧ rank? y = some q ∧ p < q := by
  have hunpacked : x < y ↔ (x.toModel.unpack.compare y.toModel.unpack == some .lt) = true := by
    show decide (x.toModel < y.toModel) = true ↔ _
    rw [decide_eq_true_iff]
    exact Iff.rfl
  rw [hunpacked, unpacked_compare_eq, rank?, rank?, beq_iff_eq]
  cases unpackedRank? x.toModel.unpack with
  | none => simp
  | some p =>
    cases unpackedRank? y.toModel.unpack with
    | none => simp
    | some q => simpa using compare_lt_iff_lt

/-- Numbers are compared by their places. -/
theorem le_iff : x ≤ y ↔ ∃ p q, rank? x = some p ∧ rank? y = some q ∧ p ≤ q := by
  have hunpacked : x ≤ y ↔ (x.toModel.unpack.compare y.toModel.unpack).any (·.isLE) = true := by
    show decide (x.toModel ≤ y.toModel) = true ↔ _
    rw [decide_eq_true_iff]
    exact Iff.rfl
  rw [hunpacked, unpacked_compare_eq, rank?, rank?]
  cases unpackedRank? x.toModel.unpack with
  | none => simp
  | some p =>
    cases unpackedRank? y.toModel.unpack with
    | none => simp
    | some q => simpa [Ordering.isLE_iff_ne_gt] using compare_le_iff_le (a := p) (b := q)

/-- What is less than a lesser number is less than the greater one. -/
theorem lt_trans (h : x < y) (h' : y < z) : x < z := by
  obtain ⟨p, q, hp, hq, hpq⟩ := lt_iff.1 h
  obtain ⟨q', r, hq', hr, hqr⟩ := lt_iff.1 h'
  cases hq.symm.trans hq'
  exact lt_iff.2 ⟨p, r, hp, hr, hpq.trans hqr⟩

/-- No number is less than itself. -/
theorem not_lt_self (x : Float32) : ¬ x < x := by
  intro h
  obtain ⟨p, q, hp, hq, hpq⟩ := lt_iff.1 h
  cases hp.symm.trans hq
  exact lt_irrefl p hpq

/-- A lesser number is no greater. -/
theorem le_of_lt (h : x < y) : x ≤ y := by
  obtain ⟨p, q, hp, hq, hpq⟩ := lt_iff.1 h
  exact le_iff.2 ⟨p, q, hp, hq, hpq.le⟩

/-- A number is less than what a number that is no less is less than. -/
theorem lt_of_le_of_lt (h : x ≤ y) (h' : y < z) : x < z := by
  obtain ⟨p, q, hp, hq, hpq⟩ := le_iff.1 h
  obtain ⟨q', r, hq', hr, hqr⟩ := lt_iff.1 h'
  cases hq.symm.trans hq'
  exact lt_iff.2 ⟨p, r, hp, hr, hpq.trans_lt hqr⟩

/-- What is no greater than a number that is no greater is no greater. -/
theorem le_trans (h : x ≤ y) (h' : y ≤ z) : x ≤ z := by
  obtain ⟨p, q, hp, hq, hpq⟩ := le_iff.1 h
  obtain ⟨q', r, hq', hr, hqr⟩ := le_iff.1 h'
  cases hq.symm.trans hq'
  exact le_iff.2 ⟨p, r, hp, hr, hpq.trans hqr⟩

/-- What is a number has a place in the order. -/
theorem isNaN_eq_false_iff : x.isNaN = false ↔ ∃ p, rank? x = some p := by
  show x.toModel.unpack.isNaN = false ↔ ∃ p, unpackedRank? x.toModel.unpack = some p
  rcases x.toModel.unpack with (_ | _) | _ | (_ | _) | ⟨_ | _, m, e, hm⟩
  case notANumber => exact iff_of_false nofun nofun
  all_goals exact iff_of_true rfl ⟨_, rfl⟩

/-- What can be compared is a number. -/
theorem isNaN_of_le (h : x ≤ y) : x.isNaN = false ∧ y.isNaN = false := by
  obtain ⟨p, q, hp, hq, -⟩ := le_iff.1 h
  exact ⟨isNaN_eq_false_iff.2 ⟨p, hp⟩, isNaN_eq_false_iff.2 ⟨q, hq⟩⟩

/-- What is less than something, and what it is less than, are numbers. -/
theorem isNaN_of_lt (h : x < y) : x.isNaN = false ∧ y.isNaN = false := isNaN_of_le (le_of_lt h)

/-- A number is no greater than itself. -/
theorem le_self (hx : x.isNaN = false) : x ≤ x := by
  obtain ⟨p, hp⟩ := isNaN_eq_false_iff.1 hx
  exact le_iff.2 ⟨p, p, hp, hp, le_rfl⟩

/-- Numbers can be compared. -/
theorem not_lt_iff (hx : x.isNaN = false) (hy : y.isNaN = false) : ¬ x < y ↔ y ≤ x := by
  obtain ⟨p, hp⟩ := isNaN_eq_false_iff.1 hx
  obtain ⟨q, hq⟩ := isNaN_eq_false_iff.1 hy
  simp [lt_iff, le_iff, hp, hq]

/-- Numbers above others can be compared. -/
theorem le_of_not_lt {a b : Float32} (ha : a < x) (hb : b < y) (h : ¬ x < y) : y ≤ x := by
  obtain ⟨-, p, -, hp, -⟩ := lt_iff.1 ha
  obtain ⟨-, q, -, hq, -⟩ := lt_iff.1 hb
  exact le_iff.2 ⟨q, p, hq, hp, le_of_not_gt fun hpq => h (lt_iff.2 ⟨p, q, hp, hq, hpq⟩)⟩

/-- What is no greater than the lesser of two numbers stays so when the second one grows. -/
theorem le_min_of_lt {a b c : Float32} (h : x ≤ Single.min a b) (hlt : b < c) :
    x ≤ Single.min a c := by
  unfold Single.min at h ⊢
  by_cases hnan : a.isNaN = true
  · rw [if_pos hnan] at h ⊢
    exact le_of_lt (lt_of_le_of_lt h hlt)
  · rw [if_neg hnan] at h ⊢
    by_cases hb : b < a
    · rw [if_pos hb] at h
      split
      · exact le_of_lt (lt_of_le_of_lt h hlt)
      · exact le_of_lt (lt_of_le_of_lt h hb)
    · rw [if_neg hb] at h
      rwa [if_neg fun hc => hb (lt_trans hlt hc)]

end Candela.Single
