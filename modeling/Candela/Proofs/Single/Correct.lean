import Candela.Proofs.Single.Nearest
import Candela.Proofs.Single.Rounding

/-!
# Correct rounding

A mantissa with a round bit and a sticky bit stands for numbers between it and the next one
(`Single.Stands`). Dropping bits halves the number that it stands for
(`Single.Stands.shiftRight`), and rounding it is rounding that number
(`Single.Stands.roundedMantissa`). So rounding goes to the nearest number of 24 places, as long as
the mantissa has not lost any of them before (`Single.Stands.rounded`); sums, products and quotients
keep enough of them.
-/

namespace Candela.Single

open Float.Model (Format UnpackedFloat totalExponent)
open Float.Model.UnpackedFloat

variable {a : ExtendedMantissa} {x q : ℚ} {m m' M : ℕ} {e e' E : ℤ} {f : UnpackedFloat}

/-! ## Extended mantissas -/

/-- The round bit is a half, and the sticky bit is set where there is more. -/
def Stands (a : ExtendedMantissa) (x : ℚ) : Prop :=
  ∃ rest : ℚ, 0 ≤ rest ∧ rest < 1 / 2 ∧
    x = a.mantissa + (if a.roundBit then 1 / 2 else 0) + rest ∧ (a.stickyBit = true ↔ 0 < rest)

namespace Stands

theorem exact (m : ℕ) : Stands ⟨m, false, false⟩ m :=
  ⟨0, le_rfl, by norm_num, by simp, by simp⟩

/-- The accuracy of a fraction. -/
theorem ofFraction (m : ℕ) {n d : ℕ} (h : n < d) :
    Stands (.ofMantissaAndAccuracy m (accuracyOfFraction n d)) (m + n / d) := by
  have hd : (0 : ℚ) < d := Nat.cast_pos.2 (Nat.zero_lt_of_lt h)
  have hhalf : (n : ℚ) / d = 1 / 2 + (2 * n - d) / (2 * d) := by
    field_simp
    ring
  unfold accuracyOfFraction
  split
  · next hzero =>
    rw [hzero, Nat.cast_zero, zero_div, add_zero]
    exact exact m
  · next hpos =>
    have hn : (0 : ℚ) < n := Nat.cast_pos.2 (Nat.pos_of_ne_zero hpos)
    rcases lt_trichotomy (2 * n) d with hlt | heq | hgt
    · rw [compare_lt_iff_lt.2 hlt]
      have hlt : (2 * n : ℚ) < d := by exact_mod_cast hlt
      refine ⟨n / d, (div_pos hn hd).le, ?_, by simp [ExtendedMantissa.ofMantissaAndAccuracy], ?_⟩
      · rw [div_lt_iff₀ hd]
        linarith
      · simp [ExtendedMantissa.ofMantissaAndAccuracy, div_pos hn hd]
    · rw [compare_eq_iff_eq.2 heq]
      have heq : (2 * n : ℚ) = d := by exact_mod_cast heq
      refine ⟨0, le_rfl, by norm_num, ?_, by simp [ExtendedMantissa.ofMantissaAndAccuracy]⟩
      rw [hhalf, heq]
      simp [ExtendedMantissa.ofMantissaAndAccuracy]
    · rw [compare_gt_iff_gt.2 hgt]
      have hgt : (d : ℚ) < 2 * n := by exact_mod_cast hgt
      have hlt : (n : ℚ) < d := Nat.cast_lt.2 h
      have hrest : 0 < (2 * n - d : ℚ) / (2 * d) := div_pos (by linarith) (by linarith)
      refine ⟨(2 * n - d) / (2 * d), hrest.le, ?_, ?_, ?_⟩
      · rw [div_lt_iff₀ (by linarith)]
        linarith
      · rw [hhalf]
        simp [ExtendedMantissa.ofMantissaAndAccuracy, add_assoc]
      · simp [ExtendedMantissa.ofMantissaAndAccuracy, hrest]

theorem floor_eq (h : Stands a x) : ⌊x⌋ = a.mantissa := by
  obtain ⟨rest, hnonneg, hlt, rfl, -⟩ := h
  rw [Int.floor_eq_iff, Int.cast_natCast]
  split <;> constructor <;> linarith

/-- Rounding a mantissa is rounding what it stands for. -/
theorem roundedMantissa (h : Stands a x) : (a.roundedMantissa : ℤ) = nearestEven x := by
  have hfloor := h.floor_eq
  obtain ⟨rest, hnonneg, hlt, hx, hsticky⟩ := h
  rw [nearestEven, hfloor]
  obtain ⟨m, _ | _, _ | _⟩ := a <;>
    simp only [Bool.false_eq_true, if_false, if_true, false_iff, true_iff, Int.cast_natCast]
      at hx hsticky ⊢
  · rw [if_pos (by linarith)]
    rfl
  · rw [if_pos (by linarith)]
    rfl
  · have hrest : rest = 0 := le_antisymm (not_lt.1 hsticky) hnonneg
    rw [hx, hrest, add_zero, if_neg (lt_irrefl _), if_pos rfl]
    rfl
  · rw [if_neg (by linarith), if_neg (by linarith)]
    rfl

/-- Dropping a bit halves the number. -/
theorem shiftRightOne (h : Stands a x) : Stands a.shiftRightOne (x / 2) := by
  obtain ⟨rest, hnonneg, hlt, rfl, hsticky⟩ := h
  obtain ⟨m, round, sticky⟩ := a
  have hm : (m : ℚ) = 2 * (m / 2 : ℕ) + (m % 2 : ℕ) := by exact_mod_cast (Nat.div_add_mod m 2).symm
  refine ⟨(if round then 1 / 4 else 0) + rest / 2, ?_, ?_, ?_, ?_⟩
  · split <;> linarith
  · split <;> linarith
  · show (m + (if round then 1 / 2 else 0) + rest : ℚ) / 2 =
      (m / 2 : ℕ) + (if m % 2 != 0 then 1 / 2 else 0) + ((if round then 1 / 4 else 0) + rest / 2)
    rw [hm]
    rcases Nat.mod_two_eq_zero_or_one m with hmod | hmod <;> rw [hmod] <;> cases round <;>
      norm_num <;> ring
  · show (round || sticky) = true ↔ _
    cases round
    · simpa using hsticky
    · simp only [Bool.true_or, if_true, true_iff]
      linarith

theorem shiftRight (h : Stands a x) (n : ℕ) : Stands (a >>> n) (x / 2 ^ n) := by
  induction n with
  | zero =>
    rw [pow_zero, div_one]
    exact h
  | succ n ih =>
    rw [pow_succ, ← div_div]
    exact ih.shiftRightOne

end Stands

/-! ## Rounding -/

/-- The nearest number of 24 places, in the form in which it is packed. -/
inductive Rounded (q : ℚ) : UnpackedFloat → Prop where
  | zero (s : Sign) (h : nearest q = 0) : Rounded q (.zero s)
  | finite {m : ℕ} {e : ℤ} (hm : 0 < m) (h : Regular m e) (hvalue : nearest q = m * 2 ^ e) :
      Rounded q (.finite .positive m e hm)

/-- The greatest power of two in a number is that in its mantissa. -/
theorem log_mul_two_zpow (hM : M ≠ 0) (E : ℤ) : Int.log 2 (M * 2 ^ E : ℚ) = M.log2 + E := by
  have hpos : (0 : ℚ) < M * 2 ^ E :=
    mul_pos (Nat.cast_pos.2 (Nat.pos_of_ne_zero hM)) (two_zpow_pos E)
  have hlow : (2 : ℚ) ^ M.log2 ≤ M := by exact_mod_cast Nat.log2_self_le hM
  have hhigh : (M : ℚ) < 2 ^ (M.log2 + 1) := by exact_mod_cast Nat.lt_log2_self
  refine le_antisymm (Int.lt_add_one_iff.1 ?_) ?_
  · rw [← Int.lt_zpow_iff_log_lt (by decide) hpos, Nat.cast_ofNat, add_right_comm,
      zpow_add₀ two_ne_zero]
    exact mul_lt_mul_of_pos_right (by exact_mod_cast hhigh) (two_zpow_pos E)
  · rw [← Int.zpow_le_iff_le_log (by decide) hpos, Nat.cast_ofNat, zpow_add₀ two_ne_zero,
      zpow_natCast]
    exact mul_le_mul_of_nonneg_right hlow (two_zpow_pos E).le

namespace Stands

variable {acc : Accuracy}

/-- A mantissa is rounded to the last place of what it stands for. -/
theorem lastPlace_eq (h : Stands (.ofMantissaAndAccuracy M acc) x) (hx : 0 < x)
    (hE : E ≤ lastPlace (x * 2 ^ E)) :
    Max.max ((M.log2 : ℤ) + E - 23) (-149) = lastPlace (x * 2 ^ E) := by
  have hmantissa : (ExtendedMantissa.ofMantissaAndAccuracy M acc).mantissa = M := by
    rcases acc with _ | (_ | _ | _) <;> rfl
  have hfloor : ⌊x⌋ = M := h.floor_eq.trans (by rw [hmantissa])
  obtain ⟨hle, hlt⟩ := Int.floor_eq_iff.1 hfloor
  rw [Int.cast_natCast] at hle hlt
  have hpos : 0 < x * 2 ^ E := mul_pos hx (two_zpow_pos E)
  rcases Nat.eq_zero_or_pos M with rfl | hM
  · -- nothing but a rest: the last place is the least one
    have hlog : Int.log 2 (x * 2 ^ E) < E := by
      rw [← Int.lt_zpow_iff_log_lt (by decide) hpos, Nat.cast_ofNat]
      rw [Nat.cast_zero, zero_add] at hlt
      exact mul_lt_of_lt_one_left (two_zpow_pos E) hlt
    unfold lastPlace at hE ⊢
    rw [Nat.log2_zero]
    omega
  · have hlow : (M * 2 ^ E : ℚ) ≤ x * 2 ^ E := mul_le_mul_of_nonneg_right hle (two_zpow_pos E).le
    have hhigh : x * 2 ^ E < 2 ^ ((M.log2 : ℤ) + 1 + E) := by
      have hM' : ((M : ℚ) + 1) ≤ 2 ^ (M.log2 + 1) := by exact_mod_cast Nat.lt_log2_self
      rw [zpow_add₀ two_ne_zero]
      refine mul_lt_mul_of_pos_right (hlt.trans_le ?_) (two_zpow_pos E)
      exact_mod_cast hM'
    have hlog : Int.log 2 (x * 2 ^ E) = M.log2 + E := by
      refine le_antisymm (Int.lt_add_one_iff.1 ?_) ?_
      · rw [← Int.lt_zpow_iff_log_lt (by decide) hpos, Nat.cast_ofNat, add_right_comm]
        exact hhigh
      · rw [← log_mul_two_zpow hM.ne']
        exact Int.log_mono_right (mul_pos (Nat.cast_pos.2 hM) (two_zpow_pos E)) hlow
    rw [lastPlace, hlog]

/-- Rounding goes to the nearest number, unless the last place has been lost before. -/
theorem rounded (h : Stands (.ofMantissaAndAccuracy M acc) x) (hx : 0 < x)
    (hE : E ≤ lastPlace (x * 2 ^ E)) :
    Rounded (x * 2 ^ E) (roundWithAccuracy .binary32 .positive M E acc) := by
  have hplace := h.lastPlace_eq hx hE
  have hq : 0 < x * 2 ^ E := mul_pos hx (two_zpow_pos E)
  obtain ⟨t, ht⟩ : ∃ t : ℤ, t = lastPlace (x * 2 ^ E) := ⟨_, rfl⟩
  obtain ⟨n, hn⟩ : ∃ n, n = (t - E).toNat := ⟨_, rfl⟩
  rw [← ht] at hE hplace
  have hfirst : shiftToTargetExponent .binary32 M E acc =
      (ExtendedMantissa.ofMantissaAndAccuracy M acc >>> n, t) := by
    rw [shiftToTargetExponent, targetExponent_eq, hplace, shiftToExponent, ← hn]
    exact Prod.ext rfl (by show E + n = t; omega)
  have hquotient : x / 2 ^ n = x * 2 ^ E / 2 ^ t := by
    have ht : t = E + n := by omega
    rw [ht, zpow_add₀ two_ne_zero, zpow_natCast, mul_comm ((2 : ℚ) ^ E),
      mul_div_mul_right _ _ (two_zpow_pos E).ne']
  have hrounded := (h.shiftRight n).roundedMantissa
  rw [hquotient] at hrounded
  have hbounds := nearestEven_bounds hq
  have hvalue : nearest (x * 2 ^ E) = nearestEven (x * 2 ^ E / 2 ^ t) * 2 ^ t := by
    rw [nearest, ← ht]
  have hleast : -149 ≤ t := by omega
  rw [← ht, ← hrounded] at hbounds
  rw [← hrounded, Int.cast_natCast] at hvalue
  rw [roundWithAccuracy, hfirst]
  dsimp only
  generalize (ExtendedMantissa.ofMantissaAndAccuracy M acc >>> n).roundedMantissa = r at *
  obtain ⟨-, hle, hfull⟩ := hbounds
  rcases Nat.lt_or_ge r (2 ^ 24) with hsmall | hcarry
  · rw [shiftToTargetExponent_of_lt hsmall hleast]
    dsimp only
    split
    · next hzero => exact .zero _ (by rw [hvalue, hzero, Nat.cast_zero, zero_mul])
    · next hpos =>
      have hpos : 0 < r := Nat.pos_of_ne_zero hpos
      exact .finite hpos ⟨hpos, hsmall, hleast, by omega⟩ hvalue
  · -- the next power of two has one place less
    obtain rfl : r = 2 ^ 24 := by omega
    rw [shiftToTargetExponent_carry hleast]
    dsimp only
    rw [dif_neg (by decide)]
    refine .finite _ ⟨by decide, by decide, by omega, .inl le_rfl⟩ (hvalue.trans ?_)
    rw [zpow_add₀ two_ne_zero, zpow_one]
    push_cast
    ring

end Stands

/-- What is as large as a full mantissa has lost no place. -/
theorem le_lastPlace (hM : 2 ^ 23 ≤ M ∨ E ≤ -149) (hpos : M ≠ 0) :
    E ≤ lastPlace (M * 2 ^ E) := by
  rw [lastPlace, log_mul_two_zpow hpos]
  rcases hM with hM | hE
  · have hlog : 23 ≤ M.log2 := (Nat.le_log2 hpos).2 hM
    omega
  · omega

/-- Exact numbers are rounded to the nearest one. -/
theorem rounded_normalize (hM : 0 < M) (E : ℤ) :
    Rounded (M * 2 ^ E) (UnpackedFloat.normalize .binary32 M E .positive) := by
  have hpositive : compare (M : ℤ) 0 = .gt := compare_gt_iff_gt.2 (Int.natCast_pos.2 hM)
  obtain ⟨n, hn⟩ : ∃ n, n = (E - Max.max ((M.log2 : ℤ) + E - 23) (-149)).toNat := ⟨_, rfl⟩
  have hround : UnpackedFloat.normalize .binary32 M E .positive =
      roundWithAccuracy .binary32 .positive (M * 2 ^ n) (E - n) .exact := by
    rw [UnpackedFloat.normalize, hpositive]
    dsimp only
    rw [Int.toNat_natCast, UnpackedFloat.round, targetExponent_eq, decreaseExponent, ← hn,
      Nat.shiftLeft_eq]
  have hvalue : (M * 2 ^ E : ℚ) = (M * 2 ^ n : ℕ) * 2 ^ (E - n) := by
    rw [zpow_sub₀ two_ne_zero, zpow_natCast]
    push_cast
    field_simp
  have hpos : 0 < M * 2 ^ n := Nat.mul_pos hM (Nat.two_pow_pos n)
  rw [hround, hvalue]
  have hstands : Stands (.ofMantissaAndAccuracy (M * 2 ^ n) .exact) (M * 2 ^ n : ℕ) := .exact _
  refine hstands.rounded (Nat.cast_pos.2 hpos) ?_
  rw [← hvalue, lastPlace, log_mul_two_zpow hM.ne']
  omega

/-- The product of two regular numbers has lost no place. -/
theorem Regular.rounded_mul (h : Regular m e) (h' : Regular m' e') :
    Rounded (m * 2 ^ e * (m' * 2 ^ e'))
      (roundWithAccuracy .binary32 .positive (m * m') (e + e') .exact) := by
  have hpos : 0 < m * m' := Nat.mul_pos h.pos h'.pos
  have hvalue : (m * 2 ^ e * (m' * 2 ^ e') : ℚ) = (m * m' : ℕ) * 2 ^ (e + e') := by
    rw [zpow_add₀ two_ne_zero]
    push_cast
    ring
  have hfull : 2 ^ 23 ≤ m * m' ∨ e + e' ≤ -149 := by
    rcases h.full with hm | rfl
    · exact .inl (hm.trans (Nat.le_mul_of_pos_right m h'.pos))
    · rcases h'.full with hm' | rfl
      · exact .inl (hm'.trans (Nat.le_mul_of_pos_left m' h.pos))
      · exact .inr (by decide)
  have hstands : Stands (.ofMantissaAndAccuracy (m * m') .exact) (m * m' : ℕ) := .exact _
  rw [hvalue]
  exact hstands.rounded (Nat.cast_pos.2 hpos) (le_lastPlace hfull hpos.ne')

/-- The quotient of two numbers is computed to the last place, and what is left tells how it is
rounded. -/
theorem rounded_div (hm : 0 < m) (hm' : 0 < m') (e e' : ℤ) :
    Rounded (m * 2 ^ e / (m' * 2 ^ e'))
      (roundWithAccuracy .binary32 .positive (divCore .binary32 m e m' e').1
        (divCore .binary32 m e m' e').2.1 (divCore .binary32 m e m' e').2.2) := by
  obtain ⟨t, ht⟩ : ∃ t, t = Min.min (e - e') (Max.max ((m.log2 + e) - (m'.log2 + e') - 24) (-149)) :=
    ⟨_, rfl⟩
  have htarget : Min.min (e - e')
      (Format.targetExponent .binary32 (totalExponent m e - totalExponent m' e')) = t := by
    have hbits : Format.mantissaBits .binary32 = 24 := rfl
    have hleast : Format.minExponent .binary32 = -149 := rfl
    rw [Format.targetExponent, totalExponent, totalExponent, hbits, hleast, ht]
    omega
  obtain ⟨n, hn⟩ : ∃ n, n = (e - e' - t).toNat := ⟨_, rfl⟩
  have hcore : divCore .binary32 m e m' e' =
      (m * 2 ^ n / m', t, accuracyOfFraction (m * 2 ^ n % m') m') := by
    unfold divCore
    dsimp only
    rw [htarget, ← hn, Nat.shiftLeft_eq]
  have hdivisor : (0 : ℚ) < m' := Nat.cast_pos.2 hm'
  have hx : ((m * 2 ^ n / m' : ℕ) : ℚ) + (m * 2 ^ n % m' : ℕ) / m' = m * 2 ^ n / m' := by
    rw [eq_div_iff hdivisor.ne', add_mul, div_mul_cancel₀ _ hdivisor.ne', mul_comm]
    exact_mod_cast Nat.div_add_mod (m * 2 ^ n) m'
  have hvalue : (m * 2 ^ e / (m' * 2 ^ e') : ℚ) = m * 2 ^ n / m' * 2 ^ t := by
    have he : e = n + t + e' := by omega
    rw [he, zpow_add₀ two_ne_zero, zpow_add₀ two_ne_zero, zpow_natCast]
    have hpower := (two_zpow_pos e').ne'
    field_simp
  have hstands := Stands.ofFraction (m * 2 ^ n / m') (Nat.mod_lt (m * 2 ^ n) hm')
  rw [hx] at hstands
  rw [hcore, hvalue]
  refine hstands.rounded (div_pos (mul_pos (Nat.cast_pos.2 hm) (by positivity)) hdivisor) ?_
  -- the quotient is at least the power of two that the places were counted from
  have hlog : (m.log2 + e) - (m'.log2 + e') - 1 ≤ Int.log 2 (m * 2 ^ n / m' * 2 ^ t : ℚ) := by
    have hm₁ : (2 : ℚ) ^ m.log2 ≤ m := by exact_mod_cast Nat.log2_self_le hm.ne'
    have hm₂ : (m' : ℚ) ≤ 2 ^ (m'.log2 + 1) := by exact_mod_cast Nat.lt_log2_self.le
    rw [← hvalue, ← Int.zpow_le_iff_le_log (by decide)
      (div_pos (mul_pos (Nat.cast_pos.2 hm) (two_zpow_pos e)) (mul_pos hdivisor (two_zpow_pos e'))),
      Nat.cast_ofNat, le_div_iff₀ (mul_pos hdivisor (two_zpow_pos e'))]
    calc (2 : ℚ) ^ ((m.log2 + e) - (m'.log2 + e') - 1) * (m' * 2 ^ e')
        ≤ 2 ^ ((m.log2 + e) - (m'.log2 + e') - 1) * (2 ^ (m'.log2 + 1) * 2 ^ e') := by gcongr
      _ = 2 ^ (m.log2 + e) := by
        rw [← zpow_natCast, ← zpow_add₀ two_ne_zero, ← zpow_add₀ two_ne_zero]
        congr 1
        push_cast
        ring
      _ = 2 ^ m.log2 * 2 ^ e := by rw [zpow_add₀ two_ne_zero, zpow_natCast]
      _ ≤ m * 2 ^ e := by gcongr
  unfold lastPlace
  omega

end Candela.Single
