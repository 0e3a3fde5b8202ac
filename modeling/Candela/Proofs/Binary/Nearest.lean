import Candela.Proofs.Single.Bits

/-!
# Rounding ratios to single precision

The pattern nearest to a ratio of natural numbers is computed without leaving them. It is that of
the rational number (`Binary.nearest_eq`): the last place and the significand are those of
`Single.lastPlace` and `Single.nearestEven`. So a ratio that is less than half a step away from a
number is rounded to its pattern, also below a power of two, where the steps are half as wide
(`Binary.nearest_eq_pattern`, `Binary.nearest_eq_pattern_below`).
-/

namespace Candela.Binary

open Format
open Candela.Single (Placed pattern lastPlace nearestEven two_zpow_pos)

variable {num den m : ℕ} {e : ℤ} {q x : ℚ}

/-! ## Powers -/

/-- A power is a quotient of powers with natural exponents, one of which is one. -/
theorem zpow_eq_div {b : ℚ} (hb : b ≠ 0) (z : ℤ) : b ^ z = b ^ z.toNat / b ^ (-z).toNat := by
  rw [eq_div_iff (pow_ne_zero _ hb), ← zpow_natCast, ← zpow_natCast, ← zpow_add₀ hb]
  congr 1
  omega

/-- A binary logarithm is an exponent. -/
theorem two_pow_log2_le (hn : 0 < num) : (2 : ℚ) ^ (num.log2 : ℤ) ≤ num := by
  rw [zpow_natCast]
  exact_mod_cast Nat.log2_self_le hn.ne'

theorem lt_two_pow_log2 (num : ℕ) : (num : ℚ) < 2 ^ (num.log2 + 1 : ℤ) := by
  have h : num < 2 ^ (num.log2 + 1) := Nat.lt_log2_self
  exact_mod_cast h

/-- The difference of two logarithms is at most one off the logarithm of the ratio. -/
theorem log2_sub_bounds (hn : 0 < num) (hd : 0 < den) :
    (2 : ℚ) ^ ((num.log2 : ℤ) - den.log2 - 1) ≤ num / den ∧
      (num / den : ℚ) < 2 ^ ((num.log2 : ℤ) - den.log2 + 1) := by
  have hdq : (0 : ℚ) < den := Nat.cast_pos.2 hd
  constructor
  · rw [le_div_iff₀ hdq]
    calc (2 : ℚ) ^ ((num.log2 : ℤ) - den.log2 - 1) * den
        ≤ 2 ^ ((num.log2 : ℤ) - den.log2 - 1) * 2 ^ (den.log2 + 1 : ℤ) :=
          mul_le_mul_of_nonneg_left (lt_two_pow_log2 den).le (two_zpow_pos _).le
      _ = 2 ^ (num.log2 : ℤ) := by
        rw [← zpow_add₀ two_ne_zero]
        congr 1
        omega
      _ ≤ num := two_pow_log2_le hn
  · rw [div_lt_iff₀ hdq]
    calc (num : ℚ) < 2 ^ (num.log2 + 1 : ℤ) := lt_two_pow_log2 num
      _ = 2 ^ ((num.log2 : ℤ) - den.log2 + 1) * 2 ^ (den.log2 : ℤ) := by
        rw [← zpow_add₀ two_ne_zero]
        congr 1
        omega
      _ ≤ _ := mul_le_mul_of_nonneg_left (two_pow_log2_le hd) (two_zpow_pos _).le

/-- A logarithm is told by the powers around a number. -/
theorem log_eq (hq : 0 < q) (hle : 2 ^ e ≤ q) (hlt : q < 2 ^ (e + 1)) : Int.log 2 q = e := by
  have lower := (Int.zpow_le_iff_le_log (b := 2) (by decide) hq).1 (by exact_mod_cast hle)
  have upper := (Int.lt_zpow_iff_log_lt (b := 2) (by decide) hq).1 (by exact_mod_cast hlt)
  omega

/-- The logarithm of a ratio. -/
theorem floorLog2_eq (hn : 0 < num) (hd : 0 < den) :
    floorLog2 num den = Int.log 2 ((num : ℚ) / den) := by
  have hdq : (0 : ℚ) < den := Nat.cast_pos.2 hd
  have hq : (0 : ℚ) < num / den := div_pos (Nat.cast_pos.2 hn) hdq
  have hguess : den * 2 ^ ((num.log2 : ℤ) - den.log2).toNat ≤
      num * 2 ^ (-((num.log2 : ℤ) - den.log2)).toNat ↔
        (2 : ℚ) ^ ((num.log2 : ℤ) - den.log2) ≤ num / den := by
    rw [zpow_eq_div two_ne_zero, div_le_div_iff₀ (by positivity) hdq, mul_comm (2 ^ _ : ℚ)]
    exact_mod_cast Iff.rfl
  obtain ⟨lower, upper⟩ := log2_sub_bounds hn hd
  unfold floorLog2
  simp only [hguess]
  split
  next h => exact (log_eq hq h upper).symm
  next h => exact (log_eq hq lower (by rw [sub_add_cancel]; exact not_le.1 h)).symm

/-- A rounded quotient. -/
theorem divNearestEven_eq (num : ℕ) (hd : 0 < den) :
    (divNearestEven num den : ℤ) = nearestEven ((num : ℚ) / den) := by
  have hdq : (0 : ℚ) < den := Nat.cast_pos.2 hd
  have hfloor : ⌊(num : ℚ) / den⌋ = ((num / den : ℕ) : ℤ) := Rat.floor_natCast_div_natCast num den
  have hsplit : (num : ℚ) / den = (num / den : ℕ) + (num % den : ℕ) / den := by
    have h : (num : ℚ) = den * (num / den : ℕ) + (num % den : ℕ) := by
      exact_mod_cast (Nat.div_add_mod num den).symm
    rw [← mul_div_cancel_left₀ ((num / den : ℕ) : ℚ) hdq.ne', ← add_div, ← h]
  have hlt : (num : ℚ) / den < (num / den : ℕ) + 1 / 2 ↔ 2 * (num % den) < den := by
    rw [hsplit, add_lt_add_iff_left, div_lt_div_iff₀ hdq two_pos, mul_comm, one_mul]
    exact_mod_cast Iff.rfl
  have heq : (num : ℚ) / den = (num / den : ℕ) + 1 / 2 ↔ 2 * (num % den) = den := by
    rw [hsplit, add_right_inj, div_eq_div_iff hdq.ne' two_ne_zero, mul_comm, one_mul]
    exact_mod_cast Iff.rfl
  unfold divNearestEven nearestEven
  rw [hfloor]
  simp only [Int.cast_natCast, hlt, heq]
  split_ifs <;> push_cast <;> rfl

/-- The pattern nearest to a ratio is made of its last place and its rounded significand. -/
theorem nearest_eq (hn : 0 < num) (hd : 0 < den) (hq : (num : ℚ) / den = q) :
    single.nearest num den =
      min ((lastPlace q + 149).toNat * 2 ^ 23 + (nearestEven (q / 2 ^ lastPlace q)).toNat)
        single.infinityBits := by
  have least : single.minExponent = -149 := rfl
  have last : max (floorLog2 num den - 23) (-149) = lastPlace q := by
    rw [floorLog2_eq hn hd, hq, lastPlace]
  have ratio : ((num * 2 ^ (-lastPlace q).toNat : ℕ) : ℚ) / (den * 2 ^ (lastPlace q).toNat : ℕ) =
      q / 2 ^ lastPlace q := by
    rw [← hq, zpow_eq_div two_ne_zero (lastPlace (num / den)), div_div_div_eq]
    push_cast
    rfl
  have significand := divNearestEven_eq (num * 2 ^ (-lastPlace q).toNat)
    (Nat.mul_pos hd (Nat.two_pow_pos (lastPlace q).toNat))
  rw [ratio] at significand
  unfold Format.nearest
  rw [if_neg hn.ne', ← significand, Int.toNat_natCast, least]
  show min ((max (floorLog2 num den - 23) (-149) - -149).toNat * 2 ^ 23 + _) _ = _
  rw [last, sub_neg_eq_add]
  show min (_ + divNearestEven (num * 2 ^ (-max (floorLog2 num den - 23) (-149)).toNat)
    (den * 2 ^ (max (floorLog2 num den - 23) (-149)).toNat)) _ = _
  rw [last]

/-! ## Numbers close to a ratio -/

/-- What is at most half away from an integer is rounded to it; half away, if it is even. -/
theorem nearestEven_eq_of_near {n : ℤ} (hlower : n - 1 / 2 ≤ x) (hupper : x ≤ n + 1 / 2)
    (hodd : n % 2 = 1 → n - 1 / 2 < x ∧ x < n + 1 / 2) : nearestEven x = n := by
  unfold nearestEven
  rcases lt_or_ge x n with hlt | hge
  · have floor : ⌊x⌋ = n - 1 := Int.floor_eq_iff.2 ⟨by push_cast; linarith, by push_cast; linarith⟩
    rw [floor]
    push_cast
    rw [if_neg (by linarith)]
    split
    next half =>
      have even : ¬ n % 2 = 1 := fun hn => by linarith [(hodd hn).1]
      omega
    next => omega
  · have floor : ⌊x⌋ = n := Int.floor_eq_iff.2 ⟨hge, by linarith⟩
    rw [floor]
    split
    next => rfl
    next hnot =>
      have half : x = n + 1 / 2 := le_antisymm hupper (not_lt.1 hnot)
      have even : ¬ n % 2 = 1 := fun hn => by linarith [(hodd hn).2]
      rw [if_pos half]
      omega

/-- Where the last place of a number is. -/
theorem lastPlace_eq (hq : 0 < q) (he : -149 ≤ e) (hlt : q < 2 ^ (24 + e))
    (hle : 2 ^ (23 + e) ≤ q ∨ e = -149) : lastPlace q = e := by
  have upper := (Int.lt_zpow_iff_log_lt (b := 2) (by decide) hq).1 (by exact_mod_cast hlt)
  rw [lastPlace]
  rcases hle with hle | rfl
  · have lower := (Int.zpow_le_iff_le_log (b := 2) (by decide) hq).1 (by exact_mod_cast hle)
    omega
  · omega

/-- A ratio with a number's last place that is rounded to the number's significand is rounded to the
number. -/
theorem nearest_eq_pattern (h : Placed m e) (hn : 0 < num) (hd : 0 < den)
    (hq : (num : ℚ) / den = q) (hlast : lastPlace q = e) (hnear : nearestEven (q / 2 ^ e) = m) :
    single.nearest num den = pattern m e := by
  rw [nearest_eq hn hd hq, hlast, hnear, Int.toNat_natCast]
  exact min_eq_left h.pattern_lt.le

/-- So is one with the last place below that is rounded to twice the significand. -/
theorem nearest_eq_pattern_below (h : Placed m e) (hm : m = 2 ^ 23) (he : e ≠ -149) (hn : 0 < num)
    (hd : 0 < den) (hq : (num : ℚ) / den = q) (hlast : lastPlace q = e - 1)
    (hnear : nearestEven (q / 2 ^ (e - 1)) = 2 ^ 24) : single.nearest num den = pattern m e := by
  have carry : (e - 1 + 149).toNat * 2 ^ 23 + (2 ^ 24 : ℤ).toNat = pattern m e := by
    have least := h.least
    rw [pattern, hm]
    omega
  rw [nearest_eq hn hd hq, hlast, hnear, carry]
  exact min_eq_left h.pattern_lt.le

end Candela.Binary
