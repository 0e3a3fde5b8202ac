import Candela.Proofs.Environment.Accumulated
import Candela.Settings

/-!
# Densities of importance tables

The densities of a table are numbers that are not negative, and not all of them are zero, as long as
the total is finite (`Table.usable_of_isFinite`): the brightest cell holds an eighth of the total
for every level of the table (`Table.Accumulated.exists_brightest`), too much to be lost by rounding.
A total that is too large for a number is infinite, and then nothing is left of the densities: next
to it a finite importance is zero, and an infinite one is no number (`Table.cellPdf_of_infinity`).
-/

namespace Candela.Environment

open Single

variable {q w : ℚ} {x total : Float32} {k : ℕ}

/-! ## One density -/

/-- The density of a sphere that is alike everywhere. -/
theorem denotes_perSphere : Denotes (Scalar.perSphere : Float32) (10680707 * 2 ^ (-27 : ℤ)) := by
  unfold Denotes
  decide +kernel

/-- The number of cells of a table that is not too large. -/
theorem denotes_cells (hk : k ≤ Layout.maxExponent) :
    Denotes (Scalar.ofCount (4 ^ k) : Float32) (2 ^ (2 * k : ℤ)) := by
  have hpower : ((4 ^ k : ℕ) : ℚ) = 2 ^ (2 * k : ℤ) := by
    rw [zpow_mul, zpow_natCast]
    norm_num
  have hrepresentable : Representable (2 ^ (2 * k : ℤ)) := .two_zpow (by omega)
  have hcount := nearest_ofNat (4 ^ k)
  rw [hpower] at hcount
  have hlimit : (2 : ℚ) ^ (2 * k : ℤ) < limit := by
    refine zpow_lt_zpow_right₀ one_lt_two ?_
    have hk : k ≤ 30 := hk
    omega
  have hcells := hcount.denotes (hrepresentable.nearest_eq_self.trans_lt hlimit)
  rwa [hrepresentable.nearest_eq_self] at hcells

/-- A share of the total, scaled to the number of cells and to the sphere. -/
def scaledShare (k : ℕ) (q : ℚ) : ℚ :=
  nearest (nearest (q * 2 ^ (2 * k : ℤ)) * (10680707 * 2 ^ (-27 : ℤ)))

theorem denotes_scaledShare (hk : k ≤ Layout.maxExponent) (hx : Denotes x q) (hle : q ≤ 1) :
    Denotes (x * (Scalar.ofCount (4 ^ k) : Float32) * Scalar.perSphere) (scaledShare k q) := by
  have hcells := denotes_cells hk
  have hproduct : nearest (q * 2 ^ (2 * k : ℤ)) ≤ 2 ^ (2 * k : ℤ) :=
    hcells.representable.nearest_le (mul_nonneg hx.nonneg hcells.nonneg)
      (mul_le_of_le_one_left hcells.nonneg hle)
  have hproduct₁ := (hx.mul hcells).denotes_of_le hproduct hcells.lt_limit
  have hsphere : scaledShare k q ≤ 2 ^ (2 * k : ℤ) := by
    refine hcells.representable.nearest_le
      (mul_nonneg hproduct₁.nonneg denotes_perSphere.nonneg) ?_
    exact (mul_le_of_le_one_right hproduct₁.nonneg (by norm_num)).trans hproduct
  exact (hproduct₁.mul denotes_perSphere).denotes_of_le hsphere hcells.lt_limit

/-- A share that is not too small is not lost. -/
theorem scaledShare_pos (hk : k ≤ 30) (hle : 2 ^ (-(3 * k) : ℤ) ≤ q) : 0 < scaledShare k q := by
  have hproduct : (2 : ℚ) ^ (-k : ℤ) ≤ nearest (q * 2 ^ (2 * k : ℤ)) := by
    refine (Representable.two_zpow (by omega)).le_nearest ?_
    have hexponent : (-k : ℤ) = -(3 * k) + 2 * k := by omega
    rw [hexponent, zpow_add₀ two_ne_zero]
    exact mul_le_mul_of_nonneg_right hle (two_zpow_pos _).le
  have hsphere : (2 : ℚ) ^ (-k + -4 : ℤ) ≤ scaledShare k q := by
    refine (Representable.two_zpow (by omega)).le_nearest ?_
    rw [zpow_add₀ two_ne_zero]
    exact mul_le_mul hproduct (by norm_num) (two_zpow_pos _).le
      ((two_zpow_pos _).le.trans hproduct)
  exact (two_zpow_pos _).trans_le hsphere

/-- A finite importance that is no more than a finite total has a density, which is not zero if the
importance is a part of the total that is not too small. -/
theorem density_spec (hk : k ≤ Layout.maxExponent) (hx : Denotes x q) (ht : Denotes total w)
    (hle : q ≤ w) :
    ∃ r, Denotes (Table.density (4 ^ k) total x) r ∧ (w ≤ q * 2 ^ (3 * k) → 0 < r) := by
  unfold Table.density
  by_cases hpos : 0 < total
  · have hw : 0 < w := (denotes_zero.lt_iff ht).1 hpos
    rw [if_pos hpos]
    have hone : nearest (q / w) ≤ 1 :=
      Representable.one.nearest_le (div_nonneg hx.nonneg hw.le) ((div_le_one hw).2 hle)
    have hshare := (hx.div ht hw).denotes_of_le hone denotes_one.lt_limit
    refine ⟨_, denotes_scaledShare hk hshare hone, fun hpart => scaledShare_pos hk ?_⟩
    have hk : k ≤ 30 := hk
    refine (Representable.two_zpow (by omega)).le_nearest ?_
    rw [le_div_iff₀ hw, zpow_neg, inv_mul_le_iff₀ (two_zpow_pos _), mul_comm]
    exact_mod_cast hpart
  · rw [if_neg hpos]
    exact ⟨_, denotes_perSphere, fun _ => by norm_num⟩

/-- Next to an infinite total a finite importance is zero, and an infinite one is no number. -/
theorem density_infinity (hk : k ≤ Layout.maxExponent) (ht : IsInfinity total) (hx : 0 ≤ x) :
    (Table.density (4 ^ k) total x).isNaN = !x.isFinite ∧ ¬ 0 < Table.density (4 ^ k) total x := by
  rw [Table.density, if_pos ht.zero_lt]
  rcases zero_le_iff.1 hx with ⟨q, hq⟩ | hinf
  · have hnothing {y z : Float32} (hy : Denotes y 0) {r : ℚ} (hz : Denotes z r) :
        Denotes (y * z) 0 := by
      have hmul := hy.mul hz
      rw [zero_mul] at hmul
      have hzero : nearest 0 < limit := nearest_zero.trans_lt (two_zpow_pos _)
      have hproduct := hmul.denotes hzero
      rwa [nearest_zero] at hproduct
    have hdensity := hnothing (hnothing (hq.div_infinity ht) (denotes_cells hk)) denotes_perSphere
    rw [hdensity.isNaN_eq_false, (exists_denotes_iff.1 ⟨q, hq⟩).1, denotes_zero.lt_iff hdensity]
    exact ⟨rfl, lt_irrefl 0⟩
  · have hnan := isNaN_mul (isNaN_mul (hinf.isNaN_div ht) (Scalar.ofCount (4 ^ k)))
      Scalar.perSphere
    rw [hnan, hinf.isFinite_eq_false]
    refine ⟨rfl, fun hlt => ?_⟩
    exact Bool.false_ne_true ((isNaN_of_lt hlt).2.symm.trans hnan)

/-! ## All densities -/

namespace Table

/-- The densities are numbers that are not negative, and not all of them are zero. -/
structure Usable (t : Table Float32) : Prop where
  nonneg : ∀ x y, x < t.layout.resolution → y < t.layout.resolution → 0 ≤ t.cellPdf x y
  pos : ∃ x y, x < t.layout.resolution ∧ y < t.layout.resolution ∧ 0 < t.cellPdf x y

variable {l : Layout} {base : Vector Float32 (4 ^ l.exponent)}

section
variable (hexponent : l.exponent ≤ Layout.maxExponent) (hbase : ∀ w ∈ base.toArray, 0 ≤ w)
include hbase

/-- No value of a table of importances that are not negative is negative, or no number. -/
theorem zero_le_value {level x y : ℕ} (hlevel : level ≤ l.exponent)
    (hx : x < l.levelResolution level) (hy : y < l.levelResolution level) :
    0 ≤ (ofCells l base).value level x y := by
  have hkept := entry_pyramid_of (p := fun w : Float32 => 0 ≤ w)
    (le_self denotes_zero.isNaN_eq_false) (fun _ _ => zero_le_add) base hbase
  rw [value_ofCells hlevel hx hy]
  exact hkept _

/-- A total that is not finite is infinite. -/
theorem isInfinity_total (h : ¬ (ofCells l base).total.isFinite = true) :
    IsInfinity (ofCells l base).total := by
  have htotal : 0 ≤ (ofCells l base).total := by
    rw [← value_exponent]
    exact zero_le_value hbase (Nat.le_refl l.exponent) (Nat.two_pow_pos _) (Nat.two_pow_pos _)
  exact (zero_le_iff.1 htotal).resolve_left fun hfinite => h (exists_denotes_iff.1 hfinite).1

include hexponent

/-- The densities of a table with a finite total. -/
theorem usable_of_isFinite (h : (ofCells l base).total.isFinite = true) :
    (ofCells l base).Usable := by
  have hnonneg : ∀ w ∈ base.toArray, ¬ w < 0 := fun w hw =>
    (not_lt_iff (isNaN_of_le (hbase w hw)).2 (isNaN_of_le (hbase w hw)).1).2 (hbase w hw)
  have ht : (ofCells l base).Accumulated := accumulated_ofCells hnonneg
  have htotal : ¬ (ofCells l base).total < 0 := by
    rw [← value_exponent]
    exact ht.notNegative _ 0 0 (Nat.le_refl l.exponent) (Nat.two_pow_pos _) (Nat.two_pow_pos _)
  obtain ⟨w, hw⟩ := exists_denotes_iff.2 ⟨h, htotal⟩
  have hdensity {x y : ℕ} (hx : x < l.resolution) (hy : y < l.resolution) :
      ∃ q r, Denotes ((ofCells l base).value 0 x y) q ∧ Denotes ((ofCells l base).cellPdf x y) r ∧
        (w ≤ q * 2 ^ (3 * l.exponent) → 0 < r) := by
    obtain ⟨q, hq, hqw⟩ := ht.value_le_total hw (Nat.zero_le _) hx hy
    obtain ⟨r, hr, hpos⟩ := density_spec hexponent hq hw hqw
    rw [← cellPdf_ofCells hx hy] at hr
    exact ⟨q, r, hq, hr, hpos⟩
  constructor
  · intro x y hx hy
    obtain ⟨-, r, -, hr, -⟩ := hdensity hx hy
    exact zero_le_iff.2 (.inl ⟨r, hr⟩)
  · obtain ⟨x, y, q, hx, hy, hq, hle⟩ := ht.exists_brightest (Nat.le_refl l.exponent)
      (Nat.two_pow_pos _) (Nat.two_pow_pos _) ((ofCells l base).value_exponent.symm ▸ hw)
    obtain ⟨q', r, hq', hr, hpos⟩ := hdensity hx hy
    obtain rfl := hq.unique hq'
    exact ⟨x, y, hx, hy, (denotes_zero.lt_iff hr).2 (hpos hle)⟩

/-- The densities of a table with a total that is too large. -/
theorem cellPdf_of_infinity (h : ¬ (ofCells l base).total.isFinite = true) {x y : ℕ}
    (hx : x < l.resolution) (hy : y < l.resolution) :
    ((ofCells l base).cellPdf x y).isNaN = !((ofCells l base).value 0 x y).isFinite ∧
      ¬ 0 < (ofCells l base).cellPdf x y := by
  rw [cellPdf_ofCells hx hy]
  exact density_infinity hexponent (isInfinity_total hbase h)
    (zero_le_value hbase (Nat.zero_le _) hx hy)

end

/-! ## Main result -/

/-- What counts as an importance is not negative. -/
theorem zero_le_max (x : Float32) : 0 ≤ Single.max x 0 := by
  have hzero : (0 : Float32) ≤ 0 := le_self denotes_zero.isNaN_eq_false
  unfold Single.max
  split
  · exact hzero
  · next hnan =>
    split
    · exact hzero
    · next hlt =>
      exact (not_lt_iff (Bool.eq_false_iff.2 hnan) denotes_zero.isNaN_eq_false).1 hlt

/-- The table of a function is one of importances that are not negative. -/
theorem ofFunction_eq (l : Layout) (importance : Vec3 Float32 → Float32) :
    ∃ base : Vector Float32 (4 ^ l.exponent), (∀ w ∈ base.toArray, 0 ≤ w) ∧
      ofFunction l importance = ofCells l base := by
  refine ⟨_, fun w hw => ?_, rfl⟩
  obtain ⟨i, hi, rfl⟩ := Array.mem_iff_getElem.1 hw
  rw [Vector.getElem_toArray, Vector.getElem_ofFn]
  exact zero_le_max _

/-- The exponents of tables that anything is rendered with. -/
theorem validated_exponent_le (s : Settings) :
    s.validated.environmentExponent.toNat ≤ Layout.maxExponent := by
  have hle : (Settings.clampWord 1 14 s.environmentExponent).toNat ≤ 14 := by
    unfold Settings.clampWord
    split_ifs with hlow hhigh
    · decide
    · decide
    · exact UInt32.le_iff_toNat_le.1 (UInt32.not_lt.1 hhigh)
  exact hle.trans (by decide)

/-- The densities of a world are numbers that are not negative, and not all zero, exactly if the
total of its importances is finite. Otherwise no density is positive, and where the importance is
infinite it is no number. -/
theorem ofFunction_usable_iff (s : Settings) (importance : Vec3 Float32 → Float32) :
    ∃ l t, Layout.ofExponent s.validated.environmentExponent.toNat = .ok l ∧
      t = ofFunction l importance ∧ (t.Usable ↔ t.total.isFinite = true) ∧
      (t.total.isFinite = false → ∀ x y, x < l.resolution → y < l.resolution →
        (t.cellPdf x y).isNaN = !(t.value 0 x y).isFinite ∧ ¬ 0 < t.cellPdf x y) := by
  let l : Layout := ⟨s.validated.environmentExponent.toNat⟩
  have hexponent : l.exponent ≤ Layout.maxExponent := validated_exponent_le s
  obtain ⟨base, hbase, htable⟩ := ofFunction_eq l importance
  refine ⟨l, ofFunction l importance, if_pos hexponent, rfl, ?_, ?_⟩
  · rw [htable]
    refine ⟨fun husable => ?_, usable_of_isFinite hexponent hbase⟩
    by_contra hinfinite
    obtain ⟨x, y, hx, hy, hpos⟩ := husable.pos
    exact (cellPdf_of_infinity hexponent hbase hinfinite hx hy).2 hpos
  · rw [htable]
    intro hinfinite x y hx hy
    exact cellPdf_of_infinity hexponent hbase (Bool.eq_false_iff.1 hinfinite) hx hy

/-- A bright world of four cells has no density that is positive, and a world that is too bright for
numbers has one that is no number. -/
theorem bright_unusable :
    ¬ (ofFunction ⟨({ environmentExponent := 1 } : Settings).validated.environmentExponent.toNat⟩
      fun _ => 3e38).Usable ∧
    ¬ (ofFunction ⟨({ environmentExponent := 1 } : Settings).validated.environmentExponent.toNat⟩
      fun _ => infinity).Usable := by
  have hbright : ∀ x < 2, ∀ y < 2, ¬ 0 < (ofFunction
      ⟨({ environmentExponent := 1 } : Settings).validated.environmentExponent.toNat⟩
        fun _ => 3e38).cellPdf x y := by
    decide +kernel
  have hinfinite : ¬ 0 ≤ (ofFunction
      ⟨({ environmentExponent := 1 } : Settings).validated.environmentExponent.toNat⟩
        fun _ => infinity).cellPdf 0 0 := by
    decide +kernel
  refine ⟨fun h => ?_, fun h => hinfinite (h.nonneg 0 0 (by decide) (by decide))⟩
  obtain ⟨x, y, hx, hy, hpos⟩ := h.pos
  exact hbright x hx y hy hpos

end Table

end Candela.Environment
