import Mathlib
import Candela.Power

/-!
# Rounding rational numbers

A positive rational number is rounded to a multiple of its last place, which is the last of 24
binary places, or `2 ^ (-149)` where that would be even less (`Single.lastPlace`). A half goes to the
even neighbour (`Single.nearestEven`). What is `Representable` stays as it is
(`Single.nearest_eq_self`), what is rounded is representable (`Single.representable_nearest`), and
rounding is monotone, also where it leads from one last place to the next
(`Single.nearest_mono`).
-/

namespace Candela.Single

variable {p q x y : ℚ} {n : ℤ}

/-! ## Integers -/

/-- The nearest integer, a half going to the even neighbour. -/
def nearestEven (x : ℚ) : ℤ :=
  if x < ⌊x⌋ + 1 / 2 then ⌊x⌋ else if x = ⌊x⌋ + 1 / 2 then ⌊x⌋ + ⌊x⌋ % 2 else ⌊x⌋ + 1

/-- Rounding goes to one of the two integers around a number. -/
theorem floor_le_nearestEven (x : ℚ) : ⌊x⌋ ≤ nearestEven x ∧ nearestEven x ≤ ⌊x⌋ + 1 := by
  unfold nearestEven
  split_ifs <;> omega

theorem nearestEven_intCast (n : ℤ) : nearestEven n = n := by
  have hhalf : (n : ℚ) < ⌊(n : ℚ)⌋ + 1 / 2 := by
    rw [Int.floor_intCast]
    linarith
  rw [nearestEven, if_pos hhalf, Int.floor_intCast]

theorem nearestEven_mono (h : x ≤ y) : nearestEven x ≤ nearestEven y := by
  have hfloor : ⌊x⌋ ≤ ⌊y⌋ := Int.floor_mono h
  rcases hfloor.lt_or_eq with hlt | heq
  · have hx := (floor_le_nearestEven x).2
    have hy := (floor_le_nearestEven y).1
    omega
  · -- between the same two integers, only the half decides
    unfold nearestEven
    rw [← heq]
    split_ifs with hx hy hy' hx' hy hy' hy hy'
    all_goals first
      | omega
      | exact absurd (le_antisymm (by linarith) (by linarith)) hx'
      | (exfalso; linarith)

/-- What is between two integers is rounded to something between them. -/
theorem le_nearestEven (h : (n : ℚ) ≤ x) : n ≤ nearestEven x :=
  (nearestEven_intCast n).symm.trans_le (nearestEven_mono h)

theorem nearestEven_le (h : x ≤ n) : nearestEven x ≤ n :=
  (nearestEven_mono h).trans_eq (nearestEven_intCast n)

/-! ## Places -/

/-- The exponent of the last place of the numbers around a positive one. -/
def lastPlace (q : ℚ) : ℤ := max (Int.log 2 q - 23) (-149)

/-- A number of at most 24 binary places that is not negative. -/
def Representable (q : ℚ) : Prop := ∃ (m : ℕ) (e : ℤ), m < 2 ^ 24 ∧ -149 ≤ e ∧ q = m * 2 ^ e

/-- The nearest number of at most 24 binary places, however large. -/
def nearest (q : ℚ) : ℚ := nearestEven (q / 2 ^ lastPlace q) * 2 ^ lastPlace q

theorem two_zpow_pos (e : ℤ) : (0 : ℚ) < 2 ^ e := zpow_pos two_pos e

theorem two_zpow_le {e e' : ℤ} (h : e ≤ e') : (2 : ℚ) ^ e ≤ 2 ^ e' :=
  zpow_le_zpow_right₀ (by norm_num) h

/-- A number has no more than 24 places. -/
theorem div_lastPlace_lt (q : ℚ) : q / 2 ^ lastPlace q < 2 ^ 24 := by
  rw [div_lt_iff₀ (two_zpow_pos _), ← zpow_natCast, ← zpow_add₀ two_ne_zero]
  have hlog : q < 2 ^ (Int.log 2 q + 1) := Int.lt_zpow_succ_log_self (by decide) q
  refine hlog.trans_le (two_zpow_le ?_)
  unfold lastPlace
  push_cast
  omega

/-- It has no fewer than 24 places, unless its last place is the least one. -/
theorem le_div_lastPlace (hq : 0 < q) (hplace : lastPlace q ≠ -149) :
    2 ^ 23 ≤ q / 2 ^ lastPlace q := by
  rw [le_div_iff₀ (two_zpow_pos _), ← zpow_natCast, ← zpow_add₀ two_ne_zero]
  have hlog : 2 ^ Int.log 2 q ≤ q := Int.zpow_log_le_self (by decide) hq
  refine le_trans (two_zpow_le ?_) hlog
  unfold lastPlace at hplace ⊢
  push_cast
  omega

theorem lastPlace_mono (hp : 0 < p) (h : p ≤ q) : lastPlace p ≤ lastPlace q := by
  have hlog : Int.log 2 p ≤ Int.log 2 q := Int.log_mono_right hp h
  unfold lastPlace
  omega

/-- The mantissa that a number is rounded to. -/
theorem nearestEven_bounds (hq : 0 < q) :
    0 ≤ nearestEven (q / 2 ^ lastPlace q) ∧ nearestEven (q / 2 ^ lastPlace q) ≤ 2 ^ 24 ∧
      (lastPlace q ≠ -149 → 2 ^ 23 ≤ nearestEven (q / 2 ^ lastPlace q)) := by
  refine ⟨le_nearestEven ?_, nearestEven_le ?_, fun hplace => le_nearestEven ?_⟩
  · rw [Int.cast_zero]
    exact div_nonneg hq.le (two_zpow_pos _).le
  · push_cast
    exact (div_lastPlace_lt q).le
  · push_cast
    exact le_div_lastPlace hq hplace

/-! ## Rounding -/

theorem nearest_zero : nearest 0 = 0 := by
  have hzero : nearestEven 0 = 0 := nearestEven_intCast 0
  rw [nearest, zero_div, hzero, Int.cast_zero, zero_mul]

theorem nearest_nonneg (hq : 0 ≤ q) : 0 ≤ nearest q := by
  rcases hq.eq_or_lt with rfl | hq
  · exact nearest_zero.ge
  · exact mul_nonneg (Int.cast_nonneg (nearestEven_bounds hq).1) (two_zpow_pos _).le

/-- What is larger is not rounded to anything less. -/
theorem nearest_mono (hp : 0 ≤ p) (h : p ≤ q) : nearest p ≤ nearest q := by
  rcases hp.eq_or_lt with rfl | hp
  · exact nearest_zero.trans_le (nearest_nonneg h)
  have hq : 0 < q := hp.trans_le h
  rcases (lastPlace_mono hp h).lt_or_eq with hlt | heq
  · -- the power of two between the two last places is between the results
    have hleast : -149 ≤ lastPlace p := le_max_right _ _
    have hlow : ((nearestEven (p / 2 ^ lastPlace p) : ℤ) : ℚ) ≤ 2 ^ 24 := by
      exact_mod_cast (nearestEven_bounds hp).2.1
    have hhigh : (2 : ℚ) ^ 23 ≤ (nearestEven (q / 2 ^ lastPlace q) : ℤ) := by
      exact_mod_cast (nearestEven_bounds hq).2.2 (by omega)
    have hpower : (2 : ℚ) ^ 24 * 2 ^ lastPlace p ≤ 2 ^ 23 * 2 ^ lastPlace q := by
      rw [← zpow_natCast, ← zpow_natCast, ← zpow_add₀ two_ne_zero, ← zpow_add₀ two_ne_zero]
      exact two_zpow_le (by push_cast; omega)
    calc nearest p ≤ 2 ^ 24 * 2 ^ lastPlace p :=
          mul_le_mul_of_nonneg_right hlow (two_zpow_pos _).le
      _ ≤ 2 ^ 23 * 2 ^ lastPlace q := hpower
      _ ≤ nearest q := mul_le_mul_of_nonneg_right hhigh (two_zpow_pos _).le
  · rw [nearest, nearest, heq]
    refine mul_le_mul_of_nonneg_right (Int.cast_le.2 (nearestEven_mono ?_)) (two_zpow_pos _).le
    exact div_le_div_of_nonneg_right h (two_zpow_pos _).le

namespace Representable

theorem nonneg (h : Representable q) : 0 ≤ q := by
  obtain ⟨m, e, -, -, rfl⟩ := h
  exact mul_nonneg m.cast_nonneg (two_zpow_pos e).le

theorem zero : Representable 0 := ⟨0, 0, by decide, by decide, by norm_num⟩

/-- Powers of two are representable, unless they are too small. -/
theorem two_zpow {e : ℤ} (he : -149 ≤ e) : Representable (2 ^ e) :=
  ⟨1, e, by decide, he, by rw [Nat.cast_one, one_mul]⟩

theorem one : Representable 1 := by
  have hpower := two_zpow (e := 0) (by decide)
  rwa [zpow_zero] at hpower

/-- A representable number times a power of two is representable. -/
theorem mul_two_pow (h : Representable q) (k : ℕ) : Representable (q * 2 ^ k) := by
  obtain ⟨m, e, hm, he, rfl⟩ := h
  refine ⟨m, e + k, hm, by omega, ?_⟩
  rw [zpow_add₀ two_ne_zero, zpow_natCast, mul_assoc]

/-- It is a multiple of the least place. -/
theorem exists_least (h : Representable q) : ∃ n : ℕ, q = n * 2 ^ (-149 : ℤ) := by
  obtain ⟨m, e, -, he, rfl⟩ := h
  obtain ⟨k, rfl⟩ : ∃ k : ℕ, e = k + -149 := ⟨(e + 149).toNat, by omega⟩
  refine ⟨m * 2 ^ k, ?_⟩
  rw [zpow_add₀ two_ne_zero, zpow_natCast, Nat.cast_mul, Nat.cast_pow, Nat.cast_ofNat, mul_assoc]

/-- It is a multiple of its last place. -/
theorem exists_lastPlace (h : Representable q) (hq : 0 < q) :
    ∃ n : ℕ, q = n * 2 ^ lastPlace q := by
  obtain ⟨m, e, hm, he, rfl⟩ := h
  have hplace : lastPlace (m * 2 ^ e : ℚ) ≤ e := by
    have hlog : Int.log 2 (m * 2 ^ e : ℚ) < 24 + e := by
      rw [← Int.lt_zpow_iff_log_lt (by decide) hq, Nat.cast_ofNat, zpow_add₀ two_ne_zero]
      have hm' : (m : ℚ) < 2 ^ (24 : ℤ) := by exact_mod_cast hm
      exact mul_lt_mul_of_pos_right hm' (two_zpow_pos e)
    unfold lastPlace
    omega
  obtain ⟨k, hk⟩ : ∃ k : ℕ, e = k + lastPlace (m * 2 ^ e : ℚ) :=
    ⟨(e - lastPlace (m * 2 ^ e : ℚ)).toNat, by omega⟩
  refine ⟨m * 2 ^ k, ?_⟩
  generalize lastPlace (m * 2 ^ e : ℚ) = t at hk
  rw [hk, zpow_add₀ two_ne_zero, zpow_natCast, Nat.cast_mul, Nat.cast_pow, Nat.cast_ofNat,
    mul_assoc]

/-- It stays as it is. -/
theorem nearest_eq_self (h : Representable q) : nearest q = q := by
  rcases h.nonneg.eq_or_lt with rfl | hq
  · exact nearest_zero
  · obtain ⟨n, hn⟩ := h.exists_lastPlace hq
    have hquotient : q / 2 ^ lastPlace q = ((n : ℤ) : ℚ) := by
      rw [div_eq_iff (two_zpow_pos _).ne', Int.cast_natCast]
      exact hn
    rw [nearest, hquotient, nearestEven_intCast, Int.cast_natCast]
    exact hn.symm

/-- Nothing above it is rounded below it. -/
theorem le_nearest (h : Representable p) (hle : p ≤ q) : p ≤ nearest q :=
  h.nearest_eq_self.symm.trans_le (nearest_mono h.nonneg hle)

/-- Nothing below it is rounded above it. -/
theorem nearest_le (h : Representable q) (hp : 0 ≤ p) (hle : p ≤ q) : nearest p ≤ q :=
  (nearest_mono hp hle).trans_eq h.nearest_eq_self

/-- The difference of two different ones is not rounded to zero. -/
theorem nearest_sub_pos (hp : Representable p) (hq : Representable q) (h : p < q) :
    0 < nearest (q - p) := by
  have hleast : (2 : ℚ) ^ (-149 : ℤ) ≤ q - p := by
    obtain ⟨m, rfl⟩ := hp.exists_least
    obtain ⟨n, rfl⟩ := hq.exists_least
    have hlt : (m : ℚ) < n := lt_of_mul_lt_mul_right h (two_zpow_pos _).le
    have hle : (m : ℚ) + 1 ≤ n := by exact_mod_cast Nat.succ_le_of_lt (Nat.cast_lt.1 hlt)
    rw [← sub_mul]
    exact le_mul_of_one_le_left (two_zpow_pos _).le (by linarith)
  exact (two_zpow_pos _).trans_le ((two_zpow (by decide)).le_nearest hleast)

end Representable

/-- What is rounded is representable. -/
theorem representable_nearest (hq : 0 ≤ q) : Representable (nearest q) := by
  rcases hq.eq_or_lt with rfl | hq
  · rw [nearest_zero]
    exact .zero
  · obtain ⟨hnonneg, hle, -⟩ := nearestEven_bounds hq
    have hleast : -149 ≤ lastPlace q := le_max_right _ _
    rw [nearest]
    generalize nearestEven (q / 2 ^ lastPlace q) = n at hnonneg hle
    obtain ⟨n, rfl⟩ := Int.eq_ofNat_of_zero_le hnonneg
    rcases hle.lt_or_eq with hlt | heq
    · exact ⟨n, _, by omega, hleast, rfl⟩
    · rw [heq]
      have hpower := Representable.two_zpow (e := 24 + lastPlace q) (by omega)
      rw [zpow_add₀ two_ne_zero] at hpower
      push_cast
      exact hpower

end Candela.Single
