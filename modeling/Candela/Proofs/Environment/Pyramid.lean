import Mathlib.Algebra.BigOperators.Intervals
import Mathlib.Tactic.Ring
import Candela.Environment.Table

/-!
# Levels of importance tables

The pyramid over the cells of a square is laid out level by level. `levelValue` is what stands for a
cell of a level, and the layout is opened here and nowhere else: a level above the cells is the level
below it of the reduced square (`levelValue_succ`). From this follow the three facts that sampling
needs: a value is the sum of the four values below it (`levelValue_eq_add`), what sums keep holds of
all values if it holds of the cells (`entry_pyramid_of`), and the last value is the sum over the
whole square (`levelValue_total`).
-/

namespace Candela.Environment

variable {α : Type} {k level x y : Nat}

/-! ## Offsets -/

namespace Layout

/-- The cells are the first level. -/
theorem levelOffset_zero (l : Layout) : l.levelOffset 0 = 0 := by
  rw [levelOffset, Nat.sub_zero, Nat.sub_self]

/-- Behind the cells, the levels are those of a square with half as many cells a side. -/
theorem levelOffset_succ (h : level ≤ k) :
    (⟨k + 1⟩ : Layout).levelOffset (level + 1)
      = 4 ^ (k + 1) + (⟨k⟩ : Layout).levelOffset level := by
  have hle : 4 ^ (k - level + 1) ≤ 4 ^ (k + 1) := Nat.pow_le_pow_right (by omega) (by omega)
  have hpow : 4 ^ (k + 1 + 1) = 4 * 4 ^ (k + 1) := Nat.pow_succ'
  show (4 ^ (k + 1 + 1) - 4 ^ (k + 1 - (level + 1) + 1)) / 3 =
    4 ^ (k + 1) + (4 ^ (k + 1) - 4 ^ (k - level + 1)) / 3
  rw [Nat.add_sub_add_right, hpow]
  omega

/-- A cell of a level above the cells is a cell of the level below in the smaller square. -/
theorem cell_succ (h : level ≤ k) (x y : Nat) :
    (⟨k + 1⟩ : Layout).cell (level + 1) x y = 4 ^ (k + 1) + (⟨k⟩ : Layout).cell level x y := by
  have hresolution : (⟨k + 1⟩ : Layout).levelResolution (level + 1) =
      (⟨k⟩ : Layout).levelResolution level := by
    show 2 ^ (k + 1 - (level + 1)) = 2 ^ (k - level)
    rw [Nat.add_sub_add_right]
  rw [cell, cell, hresolution, levelOffset_succ h, Nat.add_assoc]

/-- Cells of the square are numbered row by row. -/
theorem cell_zero (l : Layout) (x y : Nat) : l.cell 0 x y = y * 2 ^ l.exponent + x := by
  rw [cell, levelOffset_zero, Nat.zero_add]
  rfl

/-- The number of a cell of a square. -/
theorem mul_add_lt {r : Nat} (hx : x < r) (hy : y < r) : y * r + x < r * r := by
  have hrow : (y + 1) * r ≤ r * r := Nat.mul_le_mul_right r hy
  rw [Nat.succ_mul] at hrow
  omega

/-- A square has four times as many cells as one with half as many a side. -/
theorem two_pow_mul_self (k : Nat) : 2 ^ k * 2 ^ k = 4 ^ k := by
  rw [← Nat.mul_pow]

/-- A level has twice as many cells a side as the next one. -/
theorem levelResolution_eq (l : Layout) (h : level < l.exponent) :
    l.levelResolution level = 2 * l.levelResolution (level + 1) := by
  unfold levelResolution
  rw [← Nat.pow_succ']
  congr 1
  omega

/-- A level ends where the next one begins. -/
theorem levelOffset_add (l : Layout) (h : level < l.exponent) :
    l.levelOffset level + l.levelResolution level * l.levelResolution level =
      l.levelOffset (level + 1) := by
  have hnext : l.exponent - (level + 1) + 1 = l.exponent - level := by omega
  have hpow : 4 ^ (l.exponent - level + 1) = 4 * 4 ^ (l.exponent - level) := Nat.pow_succ'
  have hle : 4 ^ (l.exponent - level + 1) ≤ 4 ^ (l.exponent + 1) :=
    Nat.pow_le_pow_right (by omega) (by omega)
  rw [levelResolution, two_pow_mul_self, levelOffset, levelOffset, hnext]
  omega

/-- The last level ends where the densities begin. -/
theorem totalOffset_add_one (l : Layout) : l.totalOffset + 1 = l.pdfOffset := by
  have hle : 4 ^ 1 ≤ 4 ^ (l.exponent + 1) := Nat.pow_le_pow_right (by omega) (by omega)
  rw [totalOffset, levelOffset, pdfOffset, Nat.sub_self]
  omega

/-- The one cell of the last level. -/
theorem cell_exponent (l : Layout) : l.cell l.exponent 0 0 = l.totalOffset := by
  rw [cell, Nat.zero_mul]
  rfl

/-- A level stands before the next one. -/
theorem cell_lt_levelOffset (l : Layout) (h : level < l.exponent)
    (hx : x < l.levelResolution level) (hy : y < l.levelResolution level) :
    l.cell level x y < l.levelOffset (level + 1) := by
  rw [← l.levelOffset_add h, cell]
  exact Nat.add_lt_add_left (mul_add_lt hx hy) _

/-- The values of all levels stand before the densities. -/
theorem cell_lt (l : Layout) (h : level ≤ l.exponent) (hx : x < l.levelResolution level)
    (hy : y < l.levelResolution level) : l.cell level x y < l.pdfOffset := by
  have hcell : y * l.levelResolution level + x < 4 ^ (l.exponent - level) := by
    rw [← two_pow_mul_self]
    exact mul_add_lt hx hy
  have hpow : 4 ^ (l.exponent - level + 1) = 4 * 4 ^ (l.exponent - level) := Nat.pow_succ'
  have hle : 4 ^ (l.exponent - level + 1) ≤ 4 ^ (l.exponent + 1) :=
    Nat.pow_le_pow_right (by omega) (by omega)
  unfold cell levelOffset pdfOffset
  omega

/-- The densities stand before the end of the table. -/
theorem pdfCell_lt (l : Layout) (hx : x < l.resolution) (hy : y < l.resolution) :
    l.pdfCell x y < l.length := by
  have hcell : y * l.resolution + x < 4 ^ l.exponent := by
    rw [← two_pow_mul_self]
    exact mul_add_lt hx hy
  unfold pdfCell length
  omega

end Layout

/-! ## Entries -/

section
variable [OfNat α 0]

/-- An entry of two arrays that are put together. -/
theorem entry_append (a b : Array α) (i : Nat) :
    entry (a ++ b) i = if i < a.size then entry a i else entry b (i - a.size) := by
  simp only [entry, Array.getD_eq_getD_getElem?, Array.getElem?_append]
  split <;> rfl

/-- An entry of a vector. -/
theorem entry_toArray {n i : Nat} (v : Vector α n) (h : i < n) : entry v.toArray i = v[i] := by
  simp [entry, Array.getD_eq_getD_getElem?, h]

variable [Add α]

/-- A pyramid ends where the densities begin. -/
theorem size_pyramid_eq (l : Layout) (base : Vector α (4 ^ l.exponent)) :
    (pyramid l.exponent base).size = l.pdfOffset := by
  have hsize := size_pyramid l.exponent base
  unfold Layout.pdfOffset
  omega

/-- A pyramid begins with the cells. -/
theorem getElem?_pyramid (base : Vector α (4 ^ k)) {i : Nat} (hi : i < 4 ^ k) :
    (pyramid k base)[i]? = base.toArray[i]? := by
  cases k with
  | zero => rfl
  | succ k => rw [pyramid, Array.getElem?_append, Vector.size_toArray, if_pos hi]

/-- What stands for a cell of a level in the pyramid over some cells. -/
def levelValue (k : Nat) (base : Vector α (4 ^ k)) (level x y : Nat) : α :=
  entry (pyramid k base) ((⟨k⟩ : Layout).cell level x y)

/-- Above the cells, the pyramid is that of the reduced square. -/
theorem levelValue_succ (base : Vector α (4 ^ (k + 1))) (h : level ≤ k) (x y : Nat) :
    levelValue (k + 1) base (level + 1) x y = levelValue k (reduce k base.toArray) level x y := by
  rw [levelValue, Layout.cell_succ h, pyramid, entry_append, Vector.size_toArray, if_neg (by omega),
    Nat.add_sub_cancel_left]
  rfl

/-- The first level are the cells. -/
theorem levelValue_zero (base : Vector α (4 ^ k)) (hx : x < 2 ^ k) (hy : y < 2 ^ k) :
    levelValue k base 0 x y = entry base.toArray (y * 2 ^ k + x) := by
  have hcell : y * 2 ^ k + x < 4 ^ k := by
    rw [← Layout.two_pow_mul_self]
    exact Layout.mul_add_lt hx hy
  rw [levelValue, Layout.cell_zero, entry, entry, Array.getD_eq_getD_getElem?,
    Array.getD_eq_getD_getElem?]
  exact congrArg (·.getD 0) (getElem?_pyramid base hcell)

/-- A cell of the reduced square. -/
theorem entry_reduce (fine : Array α) (hx : x < 2 ^ k) (hy : y < 2 ^ k) :
    entry (reduce k fine).toArray (y * 2 ^ k + x) =
      entry fine (2 * y * 2 ^ (k + 1) + 2 * x) + entry fine (2 * y * 2 ^ (k + 1) + (2 * x + 1)) +
        entry fine ((2 * y + 1) * 2 ^ (k + 1) + 2 * x) +
        entry fine ((2 * y + 1) * 2 ^ (k + 1) + (2 * x + 1)) := by
  have hcell : y * 2 ^ k + x < 4 ^ k := by
    rw [← Layout.two_pow_mul_self]
    exact Layout.mul_add_lt hx hy
  have hrow : (y * 2 ^ k + x) / 2 ^ k = y := by
    rw [Nat.mul_comm, Nat.mul_add_div (Nat.two_pow_pos k), Nat.div_eq_of_lt hx, Nat.add_zero]
  have hcolumn : (y * 2 ^ k + x) % 2 ^ k = x := by
    rw [Nat.mul_comm, Nat.mul_add_mod, Nat.mod_eq_of_lt hx]
  have hbelow : 2 * y * (2 * 2 ^ k) + 2 * x + 2 * 2 ^ k = (2 * y + 1) * 2 ^ (k + 1) + 2 * x := by
    rw [Nat.pow_succ']
    ring
  rw [entry_toArray _ hcell]
  simp only [reduce, Vector.getElem_ofFn, hrow, hcolumn, hbelow]
  rw [Nat.pow_succ', Nat.add_assoc, Nat.add_assoc]

/-- A value of the second level is the sum of four cells. -/
theorem levelValue_one (base : Vector α (4 ^ (k + 1))) (hx : x < 2 ^ k) (hy : y < 2 ^ k) :
    levelValue (k + 1) base 1 x y =
      levelValue (k + 1) base 0 (2 * x) (2 * y) + levelValue (k + 1) base 0 (2 * x + 1) (2 * y) +
        levelValue (k + 1) base 0 (2 * x) (2 * y + 1) +
        levelValue (k + 1) base 0 (2 * x + 1) (2 * y + 1) := by
  have hpow : 2 ^ (k + 1) = 2 * 2 ^ k := Nat.pow_succ'
  rw [levelValue_succ base (Nat.zero_le k), levelValue_zero _ hx hy, entry_reduce _ hx hy,
    levelValue_zero base (by omega) (by omega), levelValue_zero base (by omega) (by omega),
    levelValue_zero base (by omega) (by omega), levelValue_zero base (by omega) (by omega)]

/-- A value is the sum of the four values below it. -/
theorem levelValue_eq_add (base : Vector α (4 ^ k)) (h : level < k)
    (hx : x < 2 ^ (k - (level + 1))) (hy : y < 2 ^ (k - (level + 1))) :
    levelValue k base (level + 1) x y =
      levelValue k base level (2 * x) (2 * y) + levelValue k base level (2 * x + 1) (2 * y) +
        levelValue k base level (2 * x) (2 * y + 1) +
        levelValue k base level (2 * x + 1) (2 * y + 1) := by
  induction level generalizing k with
  | zero =>
    obtain ⟨k, rfl⟩ := Nat.exists_eq_add_one_of_ne_zero (Nat.ne_zero_of_lt h)
    exact levelValue_one base hx hy
  | succ level ih =>
    obtain ⟨k, rfl⟩ := Nat.exists_eq_add_one_of_ne_zero (Nat.ne_zero_of_lt h)
    rw [Nat.add_sub_add_right] at hx hy
    rw [levelValue_succ base (by omega), ih (reduce k base.toArray) (by omega) hx hy]
    simp only [levelValue_succ base (Nat.le_of_lt_succ (Nat.lt_of_succ_lt h))]

end

/-! ## Sums -/

section
variable {M : Type} [AddCommMonoid M]

/-- A sum over twice as many numbers, by pairs. -/
theorem sum_range_two_mul (n : Nat) (f : Nat → M) :
    ∑ i ∈ Finset.range (2 * n), f i = ∑ i ∈ Finset.range n, (f (2 * i) + f (2 * i + 1)) := by
  induction n with
  | zero => rfl
  | succ n ih =>
    rw [Nat.mul_succ, Finset.sum_range_succ, Finset.sum_range_succ, ih, Finset.sum_range_succ,
      add_assoc]

/-- A sum over the cells of some rows, row by row. -/
theorem sum_range_rows (rows n : Nat) (f : Nat → M) :
    ∑ i ∈ Finset.range (rows * n), f i =
      ∑ y ∈ Finset.range rows, ∑ x ∈ Finset.range n, f (y * n + x) := by
  induction rows with
  | zero => rw [Nat.zero_mul, Finset.sum_range_zero, Finset.sum_range_zero]
  | succ rows ih => rw [Nat.succ_mul, Finset.sum_range_add, ih, Finset.sum_range_succ]

/-- A sum over the cells of a square, by blocks of two by two. -/
theorem sum_range_blocks (r : Nat) (f : Nat → M) :
    ∑ i ∈ Finset.range (2 * r * (2 * r)), f i =
      ∑ y ∈ Finset.range r, ∑ x ∈ Finset.range r,
        (f (2 * y * (2 * r) + 2 * x) + f (2 * y * (2 * r) + (2 * x + 1)) +
          f ((2 * y + 1) * (2 * r) + 2 * x) + f ((2 * y + 1) * (2 * r) + (2 * x + 1))) := by
  rw [sum_range_rows, sum_range_two_mul]
  refine Finset.sum_congr rfl fun y _ => ?_
  rw [sum_range_two_mul, sum_range_two_mul, ← Finset.sum_add_distrib]
  exact Finset.sum_congr rfl fun x _ => (add_assoc _ _ _).symm

/-- The sum of an array is that of its entries. -/
theorem sum_toList (data : Array M) :
    data.toList.sum = ∑ i ∈ Finset.range data.size, entry data i := by
  have hlist : ∀ l : List M, l.sum = ∑ i ∈ Finset.range l.length, l.getD i 0 := by
    intro l
    induction l with
    | nil => rfl
    | cons a rest ih =>
      rw [List.sum_cons, List.length_cons, Finset.sum_range_succ', ih, add_comm]
      rfl
  rw [hlist, Array.length_toList]
  refine Finset.sum_congr rfl fun i _ => ?_
  simp [entry, Array.getD_eq_getD_getElem?, List.getD_eq_getElem?_getD]

/-- The last value is the sum over the whole square. -/
theorem levelValue_total (base : Vector M (4 ^ k)) :
    levelValue k base k 0 0 = ∑ i ∈ Finset.range (4 ^ k), entry base.toArray i := by
  induction k with
  | zero =>
    rw [levelValue_zero base (Nat.two_pow_pos 0) (Nat.two_pow_pos 0)]
    exact (Finset.sum_range_one _).symm
  | succ k ih =>
    have hpow : 2 ^ (k + 1) = 2 * 2 ^ k := Nat.pow_succ'
    have hreduced : Finset.range (4 ^ k) = Finset.range (2 ^ k * 2 ^ k) := by
      rw [Layout.two_pow_mul_self]
    have hcells : Finset.range (4 ^ (k + 1)) = Finset.range (2 * 2 ^ k * (2 * 2 ^ k)) := by
      rw [← hpow, Layout.two_pow_mul_self]
    rw [levelValue_succ base (Nat.le_refl k), ih, hreduced, hcells, sum_range_rows,
      sum_range_blocks]
    refine Finset.sum_congr rfl fun y hy => Finset.sum_congr rfl fun x hx => ?_
    rw [entry_reduce _ (Finset.mem_range.1 hx) (Finset.mem_range.1 hy), hpow]

end

/-! ## What sums keep -/

/-- What holds of zero and of all cells, and of sums of what it holds of, holds of all entries of a
pyramid. -/
theorem entry_pyramid_of [OfNat α 0] [Add α] {p : α → Prop} (hzero : p 0)
    (hadd : ∀ a b, p a → p b → p (a + b)) (base : Vector α (4 ^ k)) (h : ∀ w ∈ base.toArray, p w)
    (i : Nat) : p (entry (pyramid k base) i) := by
  have hentry : ∀ (data : Array α), (∀ w ∈ data, p w) → ∀ i, p (entry data i) := by
    intro data hdata i
    rw [entry, Array.getD_eq_getD_getElem?]
    cases hi : data[i]? with
    | none => exact hzero
    | some w => exact hdata w (Array.mem_of_getElem? hi)
  induction k generalizing i with
  | zero => exact hentry _ h i
  | succ k ih =>
    have hreduced : ∀ w ∈ (reduce k base.toArray).toArray, p w := by
      intro w hw
      obtain ⟨i, hi, rfl⟩ := Array.mem_iff_getElem.1 hw
      simp only [reduce, Vector.getElem_toArray, Vector.getElem_ofFn]
      exact hadd _ _ (hadd _ _ (hadd _ _ (hentry _ h _) (hentry _ h _)) (hentry _ h _))
        (hentry _ h _)
    rw [pyramid, entry_append]
    split
    · exact hentry _ h i
    · exact ih _ hreduced _

end Candela.Environment
