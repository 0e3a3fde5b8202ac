import Mathlib.Algebra.BigOperators.Field
import Mathlib.Tactic.FieldSimp
import Candela.Proofs.Environment.InPlace

/-!
# Tables of exact numbers

In exact arithmetic a value of a table is the sum of the importances over the cells that its cell
covers (`Table.value_eq_blockSum`), since a block of cells consists of four blocks half as long
(`blockSum_two_mul`). The densities, each of them times the solid angle of a cell, sum up to one,
whether they follow the importances or are all alike (`Table.sum_density`). The main result says
this of the array that the loops leave (`Table.ofImportance_sums`).
-/

namespace Candela.Environment

/-! ## Blocks of cells -/

section
variable {M : Type} [AddCommMonoid M]

/-- The sum over a block of `n` by `n` cells; blocks are numbered like cells. -/
def blockSum (f : Nat → Nat → M) (n x y : Nat) : M :=
  ∑ j ∈ Finset.Ico (y * n) ((y + 1) * n), ∑ i ∈ Finset.Ico (x * n) ((x + 1) * n), f i j

/-- A block of one cell. -/
theorem blockSum_one (f : Nat → Nat → M) (x y : Nat) : blockSum f 1 x y = f x y := by
  simp [blockSum]

/-- A range of twice as many numbers, by halves. -/
theorem sum_Ico_two_mul (f : Nat → M) (n x : Nat) :
    ∑ i ∈ Finset.Ico (x * (n * 2)) ((x + 1) * (n * 2)), f i =
      ∑ i ∈ Finset.Ico (2 * x * n) ((2 * x + 1) * n), f i +
        ∑ i ∈ Finset.Ico ((2 * x + 1) * n) ((2 * x + 1 + 1) * n), f i := by
  have hbegin : x * (n * 2) = 2 * x * n := by ring
  have hend : (x + 1) * (n * 2) = (2 * x + 1 + 1) * n := by ring
  rw [hbegin, hend]
  exact (Finset.sum_Ico_consecutive f (Nat.mul_le_mul_right n (Nat.le_succ _))
    (Nat.mul_le_mul_right n (Nat.le_succ _))).symm

/-- A block consists of four blocks half as long. -/
theorem blockSum_two_mul (f : Nat → Nat → M) (n x y : Nat) :
    blockSum f (n * 2) x y = blockSum f n (2 * x) (2 * y) + blockSum f n (2 * x + 1) (2 * y) +
      blockSum f n (2 * x) (2 * y + 1) + blockSum f n (2 * x + 1) (2 * y + 1) := by
  simp only [blockSum, sum_Ico_two_mul, Finset.sum_add_distrib]
  ac_rfl

end

/-! ## Values and densities -/

variable {α : Type} [Field α] [LinearOrder α] [Scalar α] {l : Layout}

namespace Table

variable {base : Vector α (4 ^ l.exponent)} {level x y : Nat}

/-- A value is the sum of the importances over the cells that its cell covers. -/
theorem value_eq_blockSum (hlevel : level ≤ l.exponent) (hx : x < l.levelResolution level)
    (hy : y < l.levelResolution level) :
    (ofCells l base).value level x y =
      blockSum (fun i j => entry base.toArray (j * l.resolution + i)) (2 ^ level) x y := by
  induction level generalizing x y with
  | zero =>
    rw [value_ofCells hlevel hx hy, levelValue_zero base hx hy, Nat.pow_zero, blockSum_one]
    rfl
  | succ level ih =>
    have hresolution := l.levelResolution_eq hlevel
    have hlevel' : level ≤ l.exponent := Nat.le_of_succ_le hlevel
    rw [value_succ_ofCells hlevel hx hy, Nat.pow_succ, blockSum_two_mul,
      ← ih hlevel' (by omega) (by omega), ← ih hlevel' (by omega) (by omega),
      ← ih hlevel' (by omega) (by omega), ← ih hlevel' (by omega) (by omega)]
    rfl

variable [IsStrictOrderedRing α]

/-- The densities of some importances and their sum, each times the solid angle of a cell, sum up to
one, also where nothing is important. -/
theorem sum_density (hcount : ∀ n : Nat, (Scalar.ofCount n : α) = n)
    (hsphere : (Scalar.perSphere : α) ≠ 0) {n : Nat} (hn : n ≠ 0) (f : Nat → α) :
    ∑ i ∈ Finset.range n, density n (∑ i ∈ Finset.range n, f i) (f i) *
      (1 / (Scalar.perSphere * n)) = 1 := by
  have hn : (n : α) ≠ 0 := Nat.cast_ne_zero.2 hn
  generalize htotal : ∑ i ∈ Finset.range n, f i = total at *
  by_cases hpos : 0 < total
  · have hshare (i : Nat) :
        density n total (f i) * (1 / (Scalar.perSphere * n)) = f i / total := by
      rw [density, if_pos hpos, hcount]
      field_simp
    simp only [hshare]
    rw [← Finset.sum_div, htotal, div_self hpos.ne']
  · have halike (i : Nat) : density n total (f i) * (1 / (Scalar.perSphere * n)) = 1 / n := by
      rw [density, if_neg hpos]
      field_simp
    simp only [halike]
    rw [Finset.sum_const, Finset.card_range, nsmul_eq_mul, mul_one_div_cancel hn]

/-! ## Main result -/

/-- In exact arithmetic, the loops leave a table of any importances, be they negative or not: it
begins with the importances; a value of a level is the sum over the block of cells that its cell
covers, and stands where the layout has it; the total is the sum of all importances; and the
densities, each times the solid angle of a cell, sum up to one, also where the total is zero. -/
theorem ofImportance_sums (hcount : ∀ n : Nat, (Scalar.ofCount n : α) = n)
    (hsphere : (Scalar.perSphere : α) ≠ 0) (l : Layout) (base : Array α)
    (hsize : base.size = 4 ^ l.exponent) :
    ∃ t, ofImportance l base = .ok t ∧ InPlace.build? l base = some t.data ∧ t.layout = l ∧
      (∀ i < base.size, t.data[i]? = base[i]?) ∧
      (∀ level ≤ l.exponent, ∀ x < l.levelResolution level, ∀ y < l.levelResolution level,
        t.data[l.cell level x y]? = some (t.value level x y) ∧
        t.value level x y = blockSum (fun i j => entry base (j * l.resolution + i))
          (2 ^ level) x y) ∧
      t.total = base.toList.sum ∧
      ∑ y ∈ Finset.range l.resolution, ∑ x ∈ Finset.range l.resolution,
        t.cellPdf x y * (1 / (Scalar.perSphere * 4 ^ l.exponent)) = 1 := by
  let cells : Vector α (4 ^ l.exponent) := ⟨base, hsize⟩
  have hok : ofImportance l base = .ok (ofCells l cells) := dif_pos hsize
  refine ⟨ofCells l cells, hok, by rw [InPlace.build?_eq, hok]; rfl, rfl, fun i hi => ?_,
    fun level hlevel x hx y hy => ⟨getElem?_cell _ hlevel hx hy, value_eq_blockSum hlevel hx hy⟩,
    total_ofCells, ?_⟩
  · rw [getElem?_ofCells (hsize ▸ hi)]
    exact (Array.getElem?_eq_getElem hi).symm
  · have hcells : l.resolution * l.resolution = 4 ^ l.exponent := Layout.two_pow_mul_self _
    have htotal : (ofCells l cells).total = ∑ i ∈ Finset.range (4 ^ l.exponent), entry base i := by
      rw [total_ofCells, sum_toList, Vector.size_toArray]
    have hrange : Finset.range (l.resolution * l.resolution) = Finset.range (4 ^ l.exponent) := by
      rw [hcells]
    have hsum := sum_density hcount hsphere (Nat.pow_pos (n := l.exponent) (by decide : 0 < 4)).ne'
      (entry base)
    rw [← htotal, ← hrange, sum_range_rows] at hsum
    refine Eq.trans ?_ hsum
    refine Finset.sum_congr rfl fun y hy => Finset.sum_congr rfl fun x hx => ?_
    rw [cellPdf_ofCells (Finset.mem_range.1 hx) (Finset.mem_range.1 hy),
      value_ofCells (Nat.zero_le _) (Finset.mem_range.1 hx) (Finset.mem_range.1 hy),
      levelValue_zero cells (Finset.mem_range.1 hx) (Finset.mem_range.1 hy), Nat.cast_pow,
      Nat.cast_ofNat]
    rfl

/-- Squares of four cells, one with importances and one without, and the values of the first. -/
theorem sums_square : (∃ t : Table Rat, ofImportance ⟨1⟩ #[1, 2, 3, 0] = .ok t ∧
      InPlace.build? ⟨1⟩ #[1, 2, 3, 0] = some t.data ∧ t.value 1 0 0 = 6 ∧ t.total = 6 ∧
      ∑ y ∈ Finset.range 2, ∑ x ∈ Finset.range 2, t.cellPdf x y * (1 / (7 / 88 * 4)) = 1) ∧
    ∃ t : Table Rat, ofImportance ⟨1⟩ #[0, 0, 0, 0] = .ok t ∧
      ∑ y ∈ Finset.range 2, ∑ x ∈ Finset.range 2, t.cellPdf x y * (1 / (7 / 88 * 4)) = 1 := by
  have hsphere : (Scalar.perSphere : Rat) ≠ 0 := by decide +kernel
  constructor
  · obtain ⟨t, ht, hbuild, -, -, hvalue, htotal, hsum⟩ := ofImportance_sums (fun _ => rfl) hsphere
      ⟨1⟩ (#[1, 2, 3, 0] : Array Rat) rfl
    refine ⟨t, ht, hbuild, ?_, ?_, hsum⟩
    · rw [(hvalue 1 (by decide) 0 (by decide) 0 (by decide)).2]
      decide +kernel
    · rw [htotal]
      decide +kernel
  · obtain ⟨t, ht, -, -, -, -, -, hsum⟩ := ofImportance_sums (fun _ => rfl) hsphere
      ⟨1⟩ (#[0, 0, 0, 0] : Array Rat) rfl
    exact ⟨t, ht, hsum⟩

end Table

end Candela.Environment
