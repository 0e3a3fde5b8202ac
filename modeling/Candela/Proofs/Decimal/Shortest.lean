import Mathlib
import Candela.Decimal.Shortest
import Candela.Proofs.Binary.Nearest

/-!
# The fewest digits lie in the cell

The digits that are written for a number stand for a rational number in its cell (`Cell.Contains`,
`shortest_spec`): the search takes no candidate that is not in the cell (`Cell.contains_of_pick?`),
and it finds one, since a grid that is finer than half a step has one (`Cell.exists_pick?`) and the
search goes down to such a grid (`Cell.fine_grid`). What is in the cell of a number is rounded to
the number (`Cell.Contains.nearest_eq`).
-/

namespace Candela.Decimal

open Candela.Binary (single zpow_eq_div)
open Candela.Single (Placed pattern lastPlace nearestEven two_zpow_pos)

variable {c : Cell} {d m num den : ℕ} {e k : ℤ} {q : ℚ} {tie : Tie}

namespace Cell

/-! ## What is in a cell -/

/-- The rational numbers in a cell. -/
def Contains (c : Cell) (q : ℚ) : Prop :=
  if c.significand % 2 = 0 then
    c.lower * 2 ^ (c.exponent - 2) ≤ q ∧ q ≤ c.upper * 2 ^ (c.exponent - 2)
  else c.lower * 2 ^ (c.exponent - 2) < q ∧ q < c.upper * 2 ^ (c.exponent - 2)

/-- The number of a cell. -/
def value (c : Cell) : ℚ := c.significand * 2 ^ c.exponent

/-- A number in quarters of a step. -/
theorem value_eq (c : Cell) : c.value = (4 * c.significand : ℕ) * 2 ^ (c.exponent - 2) := by
  have quarters : (2 : ℚ) ^ c.exponent = 4 * 2 ^ (c.exponent - 2) := by
    rw [zpow_sub₀ two_ne_zero]
    ring
  rw [value, quarters]
  push_cast
  ring

/-- What lies strictly between the ends is in a cell. -/
theorem contains_of_between (hlower : c.lower * 2 ^ (c.exponent - 2) < q)
    (hupper : q < c.upper * 2 ^ (c.exponent - 2)) : c.Contains q := by
  unfold Contains
  split
  · exact ⟨hlower.le, hupper.le⟩
  · exact ⟨hlower, hupper⟩

/-- What is in a cell lies between the ends. -/
theorem Contains.between (h : c.Contains q) :
    c.lower * 2 ^ (c.exponent - 2) ≤ q ∧ q ≤ c.upper * 2 ^ (c.exponent - 2) := by
  unfold Contains at h
  split at h
  · exact h
  · exact ⟨h.1.le, h.2.le⟩

/-- The ends belong to the cell only if the significand is even. -/
theorem Contains.strict (h : c.Contains q) (hodd : c.significand % 2 = 1) :
    c.lower * 2 ^ (c.exponent - 2) < q ∧ q < c.upper * 2 ^ (c.exponent - 2) := by
  rwa [Contains, if_neg (by omega)] at h

/-- Everything in a cell is positive. -/
theorem Contains.pos (h : c.Contains q) (hm : 0 < c.significand) : 0 < q := by
  have lower : 0 < c.lower := by
    unfold lower
    split <;> omega
  exact (mul_pos (Nat.cast_pos.2 lower) (two_zpow_pos _)).trans_le h.between.1

theorem le_lower (c : Cell) : 4 * c.significand ≤ c.lower + 2 := by
  unfold lower
  split <;> omega

theorem le_lower_of_narrow (h : c.narrowBelow = true) : 4 * c.significand ≤ c.lower + 1 := by
  rw [lower, if_pos h]
  omega

theorem lower_lt (hm : 0 < c.significand) : c.lower < 4 * c.significand := by
  unfold lower
  split <;> omega

/-! ## Candidates -/

/-- A quarter of a step and a unit of a grid, in the unit that they share. -/
theorem exists_unit (c : Cell) (k : ℤ) : ∃ u : ℚ, 0 < u ∧
    ((c.units k).1 : ℚ) = 2 ^ (c.exponent - 2) * u ∧ ((c.units k).2 : ℚ) = 10 ^ k * u := by
  refine ⟨2 ^ (2 - c.exponent).toNat * 10 ^ (-k).toNat, by positivity, ?_, ?_⟩
  · rw [zpow_eq_div two_ne_zero, neg_sub]
    simp only [units]
    push_cast
    field_simp
  · rw [zpow_eq_div (by norm_num)]
    simp only [units]
    push_cast
    field_simp

/-- Candidates are compared with quarters of a step. -/
theorem le_candidate_iff {n : ℕ} : n * (c.units k).1 ≤ d * (c.units k).2 ↔
    (n * 2 ^ (c.exponent - 2) : ℚ) ≤ d * 10 ^ k := by
  obtain ⟨u, hu, hquarter, hunit⟩ := c.exists_unit k
  rw [← mul_le_mul_iff_left₀ hu, mul_assoc, mul_assoc, ← hquarter, ← hunit]
  exact_mod_cast Iff.rfl

theorem candidate_le_iff {n : ℕ} : d * (c.units k).2 ≤ n * (c.units k).1 ↔
    (d * 10 ^ k : ℚ) ≤ n * 2 ^ (c.exponent - 2) := by
  obtain ⟨u, hu, hquarter, hunit⟩ := c.exists_unit k
  rw [← mul_le_mul_iff_left₀ hu, mul_assoc, mul_assoc, ← hquarter, ← hunit]
  exact_mod_cast Iff.rfl

/-- Whether a candidate is in a cell. -/
theorem holds_iff : c.holds k d = true ↔ c.Contains (d * 10 ^ k) := by
  simp only [holds, Contains, ← not_le, ← le_candidate_iff, ← candidate_le_iff]
  split <;> simp

/-- A number is between its neighbours on a grid. -/
theorem below_spec (c : Cell) (k : ℤ) :
    c.below k * 10 ^ k ≤ c.value ∧ c.value < (c.below k + 1 : ℕ) * 10 ^ k := by
  rw [value_eq, ← candidate_le_iff, ← not_le, ← candidate_le_iff, not_le]
  have positive : 0 < (c.units k).2 := by
    have : 0 < 2 ^ (2 - c.exponent).toNat * 10 ^ k.toNat := by positivity
    exact this
  exact ⟨Nat.div_mul_le_self _ _, Nat.lt_mul_of_div_lt (Nat.lt_succ_self _) positive⟩

/-- The candidate that is taken is in the cell. -/
theorem contains_of_pick? (h : c.pick? tie k = some d) : c.Contains (d * 10 ^ k) := by
  rw [← holds_iff]
  simp only [pick?] at h
  split at h
  · cases h
  · cases h
    assumption
  · cases h
    assumption
  · next hbelow habove =>
    split at h <;> cases h
    · exact hbelow
    · exact habove
    · exact habove
    · rcases Nat.mod_two_eq_zero_or_one (c.below k) with heven | hodd
      · rwa [heven]
      · rwa [hodd]

/-- A grid that is finer than half a step has a candidate. -/
theorem exists_pick? (hm : 0 < c.significand) (hk : (10 : ℚ) ^ k < 2 ^ (c.exponent - 1))
    (tie : Tie) : ∃ d, c.pick? tie k = some d := by
  have above : c.holds k (c.below k + 1) = true := by
    obtain ⟨hle, hlt⟩ := c.below_spec k
    have half : (2 : ℚ) ^ (c.exponent - 1) = 2 * 2 ^ (c.exponent - 2) := by
      rw [← zpow_one_add₀ two_ne_zero]
      congr 1
      omega
    have value := c.value_eq
    have quarter := two_zpow_pos (c.exponent - 2)
    have lower : (c.lower : ℚ) * 2 ^ (c.exponent - 2) < c.value := by
      rw [value]
      exact mul_lt_mul_of_pos_right (Nat.cast_lt.2 (lower_lt hm)) quarter
    refine holds_iff.2 (contains_of_between (lower.trans hlt) ?_)
    calc ((c.below k + 1 : ℕ) : ℚ) * 10 ^ k = c.below k * 10 ^ k + 10 ^ k := by push_cast; ring
      _ < c.value + 2 ^ (c.exponent - 1) := add_lt_add_of_le_of_lt hle hk
      _ = c.upper * 2 ^ (c.exponent - 2) := by
        rw [value, half, upper]
        push_cast
        ring
  unfold pick?
  simp only [above]
  cases c.holds k (c.below k) with
  | false => exact ⟨_, rfl⟩
  | true =>
    dsimp only
    split <;> exact ⟨_, rfl⟩

/-! ## The search -/

/-- The search ends with a candidate if there is one among its grids. -/
theorem contains_search {n i : ℕ} (hi : i < n) (h : ∃ d, c.pick? tie (k - i) = some d) :
    c.Contains ((c.search tie n k).1 * 10 ^ (c.search tie n k).2) := by
  induction n generalizing i k with
  | zero => cases hi
  | succ n ih =>
    unfold search
    split
    next d hpick => exact contains_of_pick? hpick
    next hnone =>
      cases i with
      | zero =>
        obtain ⟨d, hd⟩ := h
        rw [Nat.cast_zero, sub_zero, hnone] at hd
        cases hd
      | succ i =>
        refine ih (Nat.lt_of_succ_lt_succ hi) ?_
        rwa [sub_sub, add_comm 1, ← Nat.cast_succ]

/-- The estimate of the first digit's exponent is not too large by far. -/
theorem leading_le (c : Cell) :
    c.leading ≤ ((c.significand.log2 : ℤ) + c.exponent) * 30103 / 100000 + 1 := by
  unfold leading
  dsimp only
  split_ifs <;> omega

/-- Sixteen places behind the estimate from a binary logarithm, a grid is fine enough. -/
theorem estimate_fits : ∀ i ∈ List.range 277,
    10 ^ (((i : ℤ) - 149) * 30103 / 100000 - 15).toNat * 2 ^ (24 - ((i : ℤ) - 149)).toNat <
      2 ^ (((i : ℤ) - 149) - 24).toNat * 10 ^ (15 - ((i : ℤ) - 149) * 30103 / 100000).toNat := by
  decide +kernel

theorem ten_zpow_lt {L : ℤ} (hL : -149 ≤ L) (hL' : L ≤ 127) :
    (10 : ℚ) ^ (L * 30103 / 100000 - 15) < 2 ^ (L - 24) := by
  obtain ⟨i, hi⟩ : ∃ i : ℕ, (i : ℤ) - 149 = L := ⟨(L + 149).toNat, by omega⟩
  have fits := estimate_fits i (List.mem_range.2 (by omega))
  rw [hi] at fits
  rw [zpow_eq_div (by norm_num), zpow_eq_div two_ne_zero,
    div_lt_div_iff₀ (by positivity) (by positivity), neg_sub, neg_sub]
  exact_mod_cast fits

end Cell

/-! ## Cells of numbers -/

section Finite

variable (h : Placed m e) (hm : 0 < m)

include h hm

/-- The search comes to a grid that is finer than half a step. -/
theorem Cell.fine_grid :
    (10 : ℚ) ^ ((Cell.ofFinite single m e).leading - 16) < 2 ^ (e - 1) := by
  have log : m.log2 < 24 := (Nat.log2_lt hm.ne').2 h.lt
  have full : m.log2 = 23 ∨ e = -149 := h.full.imp_left fun hfull =>
    (Nat.log2_eq_iff hm.ne').2 ⟨hfull, h.lt⟩
  have least := h.least
  have greatest := h.greatest
  have estimate : (Cell.ofFinite single m e).leading ≤
      ((m.log2 : ℤ) + e) * 30103 / 100000 + 1 := Cell.leading_le _
  calc (10 : ℚ) ^ ((Cell.ofFinite single m e).leading - 16)
      ≤ 10 ^ (((m.log2 : ℤ) + e) * 30103 / 100000 - 15) :=
        zpow_le_zpow_right₀ (by norm_num) (by omega)
    _ < 2 ^ ((m.log2 : ℤ) + e - 24) := Cell.ten_zpow_lt (by omega) (by omega)
    _ ≤ 2 ^ (e - 1) := Single.two_zpow_le (by omega)

/-- The digits of a number stand for something in its cell. -/
theorem shortest_spec (tie : Tie) : ∃ d k, shortest tie single m e = Digits.ofScaled d k ∧
    0 < d ∧ (Cell.ofFinite single m e).Contains (d * 10 ^ k) := by
  have contains := Cell.contains_search (by decide : 16 < 17)
    (Cell.exists_pick? (c := .ofFinite single m e) hm (Cell.fine_grid h hm) tie)
  refine ⟨_, _, rfl, ?_, contains⟩
  exact Nat.cast_pos.1 ((mul_pos_iff_of_pos_right (zpow_pos (by norm_num) _)).1 (contains.pos hm))

omit h hm in
/-- A quarter of a step is a fourth of it. -/
theorem quarters_le_iff {n : ℚ} : n * 2 ^ (e - 2) ≤ q ↔ n / 4 ≤ q / 2 ^ e := by
  have quarter : n * 2 ^ (e - 2) = n / 4 * 2 ^ e := by
    rw [zpow_sub₀ two_ne_zero]
    ring
  rw [quarter, le_div_iff₀ (two_zpow_pos e)]

omit h hm in
theorem le_quarters_iff {n : ℚ} : q ≤ n * 2 ^ (e - 2) ↔ q / 2 ^ e ≤ n / 4 := by
  have quarter : n * 2 ^ (e - 2) = n / 4 * 2 ^ e := by
    rw [zpow_sub₀ two_ne_zero]
    ring
  rw [quarter, div_le_iff₀ (two_zpow_pos e)]

omit hm in
/-- The lower end of the cell of a power of two is half as far away. -/
theorem Cell.narrowBelow_ofFinite (hm : m = 2 ^ 23) (he : e ≠ -149) :
    (Cell.ofFinite single m e).narrowBelow = true := by
  have least : single.minExponent < e := lt_of_le_of_ne h.least he.symm
  simp only [Cell.ofFinite, hm, least]
  rfl

omit hm in
/-- How far from a number something in its cell is, in steps. -/
theorem Cell.Contains.steps (hq : (Cell.ofFinite single m e).Contains q) :
    (m - 1 / 2 ≤ q / 2 ^ e ∧ q / 2 ^ e ≤ m + 1 / 2) ∧
      (m % 2 = 1 → m - 1 / 2 < q / 2 ^ e ∧ q / 2 ^ e < m + 1 / 2) ∧
      (m = 2 ^ 23 → e ≠ -149 → m - 1 / 4 ≤ q / 2 ^ e) := by
  have upper : ((Cell.ofFinite single m e).upper : ℚ) = 4 * m + 2 := by
    rw [Cell.upper, Cell.ofFinite]
    push_cast
    rfl
  have lower : 4 * (m : ℚ) ≤ (Cell.ofFinite single m e).lower + 2 := by
    have natural : 4 * m ≤ (Cell.ofFinite single m e).lower + 2 :=
      (Cell.ofFinite single m e).le_lower
    exact_mod_cast natural
  obtain ⟨hlower, hupper⟩ := hq.between
  have below : ((Cell.ofFinite single m e).lower : ℚ) / 4 ≤ q / 2 ^ e := quarters_le_iff.1 hlower
  have above : q / 2 ^ e ≤ (Cell.ofFinite single m e).upper / 4 := le_quarters_iff.1 hupper
  rw [upper] at above
  refine ⟨⟨by linarith, by linarith⟩, fun odd => ?_, fun hm he => ?_⟩
  · obtain ⟨hlower, hupper⟩ := hq.strict odd
    have below : ((Cell.ofFinite single m e).lower : ℚ) / 4 < q / 2 ^ e :=
      not_le.1 (mt le_quarters_iff.2 (not_le.2 hlower))
    have above : q / 2 ^ e < (Cell.ofFinite single m e).upper / 4 :=
      not_le.1 (mt quarters_le_iff.2 (not_le.2 hupper))
    rw [upper] at above
    exact ⟨by linarith, by linarith⟩
  · have narrow : 4 * (m : ℚ) ≤ (Cell.ofFinite single m e).lower + 1 := by
      have natural : 4 * m ≤ (Cell.ofFinite single m e).lower + 1 :=
        Cell.le_lower_of_narrow (Cell.narrowBelow_ofFinite h hm he)
      exact_mod_cast natural
    linarith

omit h hm in
theorem lt_two_zpow_iff (n : ℕ) : q < 2 ^ (n + e) ↔ q / 2 ^ e < 2 ^ n := by
  rw [zpow_add₀ two_ne_zero, zpow_natCast, div_lt_iff₀ (two_zpow_pos e)]

/-- What is in the cell of a power of two, and below it, is rounded to it with the last place
below. -/
theorem Cell.Contains.nearest_eq_below (hq : (Cell.ofFinite single m e).Contains q)
    (he : e ≠ -149) (hbelow : q < 2 ^ (23 + e)) (hn : 0 < num) (hd : 0 < den)
    (hratio : (num : ℚ) / den = q) : single.nearest num den = pattern m e := by
  obtain ⟨⟨lower, -⟩, -, narrow⟩ := hq.steps h
  have least := h.least
  have full : 2 ^ 23 ≤ m := h.full.resolve_right he
  have above := (lt_two_zpow_iff 23).1 hbelow
  have power : m = 2 ^ 23 := by
    have cast : (m : ℚ) < (2 ^ 23 + 1 : ℕ) := by
      push_cast
      linarith
    have := Nat.cast_lt.1 cast
    omega
  have lower := narrow power he
  rw [power] at lower
  have double : q / 2 ^ (e - 1) = 2 * (q / 2 ^ e) := by
    rw [zpow_sub₀ two_ne_zero]
    field_simp
  refine Binary.nearest_eq_pattern_below h power he hn hd hratio
    (Binary.lastPlace_eq (hq.pos hm) (by omega) ?_ (.inl (not_lt.1 fun hlt => ?_))) ?_
  · exact (lt_two_zpow_iff 24).2 (double.trans_lt (by linarith))
  · have far := (lt_two_zpow_iff 23).1 hlt
    rw [double] at far
    push_cast at lower
    linarith
  · rw [double]
    push_cast at lower
    refine Binary.nearestEven_eq_of_near ?_ ?_ fun hodd => absurd hodd (by decide)
    · push_cast
      linarith
    · push_cast
      linarith

/-- What is in the cell of a number is rounded to the number. -/
theorem Cell.Contains.nearest_eq (hq : (Cell.ofFinite single m e).Contains q) (hn : 0 < num)
    (hd : 0 < den) (hratio : (num : ℚ) / den = q) : single.nearest num den = pattern m e := by
  obtain ⟨⟨lower, upper⟩, odd, -⟩ := hq.steps h
  have largest := h.significand_le
  by_cases last : 2 ^ (23 + e) ≤ q ∨ e = -149
  · have below : q < 2 ^ (24 + e) := (lt_two_zpow_iff 24).2 (by linarith)
    refine Binary.nearest_eq_pattern h hn hd hratio
      (Binary.lastPlace_eq (hq.pos hm) h.least below last) ?_
    exact Binary.nearestEven_eq_of_near (by exact_mod_cast lower) (by exact_mod_cast upper)
      fun hodd => by exact_mod_cast odd (by omega)
  · obtain ⟨above, he⟩ := not_or.1 last
    exact hq.nearest_eq_below h hm he (not_le.1 above) hn hd hratio

end Finite

end Candela.Decimal
