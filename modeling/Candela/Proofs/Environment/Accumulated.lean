import Candela.Proofs.Environment.Sampling
import Candela.Proofs.Single.Value

/-!
# Tables of rounded sums

The values of a table of single-precision numbers are rounded sums of the values below them
(`Table.Accumulated`). Rounding keeps their order: the half of a block is no more than the block
(`left_le_addUp`, `right_le_addUp`), although it is not added up in the same way, and so is every
cell.
-/

namespace Candela.Environment

open Single

variable {a b c d p q w : ℚ}

/-! ## Rounded sums -/

/-- Four numbers, added up one after the other. -/
def addUp (a b c d : ℚ) : ℚ := nearest (nearest (nearest (a + b) + c) + d)

section
variable (ha : Representable a) (hb : Representable b) (hc : 0 ≤ c) (hd : 0 ≤ d)
include ha hb hc hd

/-- Three of the numbers are no more than all of them. -/
theorem three_le_addUp : nearest (nearest (a + b) + c) ≤ addUp a b c d := by
  have hupper : 0 ≤ nearest (a + b) := nearest_nonneg (add_nonneg ha.nonneg hb.nonneg)
  exact (representable_nearest (add_nonneg hupper hc)).le_nearest (le_add_of_nonneg_right hd)

/-- The left half is no more than the whole. -/
theorem left_le_addUp : nearest (a + c) ≤ addUp a b c d := by
  have hupper : a ≤ nearest (a + b) := ha.le_nearest (le_add_of_nonneg_right hb.nonneg)
  exact (nearest_mono (add_nonneg ha.nonneg hc) (add_le_add_left hupper c)).trans
    (three_le_addUp ha hb hc hd)

/-- The right half is no more than the whole. -/
theorem right_le_addUp : nearest (b + d) ≤ addUp a b c d := by
  have hupper : b ≤ nearest (a + b) := hb.le_nearest (le_add_of_nonneg_left ha.nonneg)
  have hnonneg : 0 ≤ nearest (a + b) := hb.nonneg.trans hupper
  have hthree : nearest (a + b) ≤ nearest (nearest (a + b) + c) :=
    (representable_nearest (add_nonneg ha.nonneg hb.nonneg)).le_nearest
      (le_add_of_nonneg_right hc)
  exact nearest_mono (add_nonneg hb.nonneg hd) (add_le_add_left (hupper.trans hthree) d)

end

/-- Four numbers are together no more than eight times the greatest one. -/
theorem addUp_le (ha : 0 ≤ a) (hb : 0 ≤ b) (hc : 0 ≤ c) (hd : 0 ≤ d) (hw : Representable w)
    (haw : a ≤ w) (hbw : b ≤ w) (hcw : c ≤ w) (hdw : d ≤ w) : addUp a b c d ≤ w * 2 ^ 3 := by
  have hupper : nearest (a + b) ≤ w * 2 ^ 1 :=
    (hw.mul_two_pow 1).nearest_le (add_nonneg ha hb) (by linarith)
  have hupper' : 0 ≤ nearest (a + b) := nearest_nonneg (add_nonneg ha hb)
  have hthree : nearest (nearest (a + b) + c) ≤ w * 2 ^ 2 :=
    (hw.mul_two_pow 2).nearest_le (add_nonneg hupper' hc) (by linarith)
  have hthree' : 0 ≤ nearest (nearest (a + b) + c) := nearest_nonneg (add_nonneg hupper' hc)
  exact (hw.mul_two_pow 3).nearest_le (add_nonneg hthree' hd) (by linarith)

/-- Where two numbers are not zero, their sum is not. -/
theorem nearest_add_pos (hp : Representable p) (hq : Representable q) (h : 0 < p ∨ 0 < q) :
    0 < nearest (p + q) := by
  rcases h with h | h
  · exact h.trans_le (hp.le_nearest (le_add_of_nonneg_right hq.nonneg))
  · exact h.trans_le (hq.le_nearest (le_add_of_nonneg_left hp.nonneg))

/-- Where the left half is not everything, there is something in the right one. -/
theorem right_pos (ha : Representable a) (hb : Representable b) (hc : 0 ≤ c)
    (hd : Representable d) (h : nearest (a + c) < addUp a b c d) : 0 < nearest (b + d) := by
  refine nearest_add_pos hb hd ?_
  by_contra hzero
  rw [not_or, not_lt, not_lt] at hzero
  obtain rfl : b = 0 := le_antisymm hzero.1 hb.nonneg
  obtain rfl : d = 0 := le_antisymm hzero.2 hd.nonneg
  refine h.ne ?_
  rw [addUp, add_zero, add_zero, ha.nearest_eq_self,
    (representable_nearest (add_nonneg ha.nonneg hc)).nearest_eq_self]

/-- Where the first part is not everything, there is something in the second one. -/
theorem second_pos (hp : Representable p) (hq : 0 ≤ q) (h : p < nearest (p + q)) : 0 < q := by
  refine hq.lt_of_ne ?_
  rintro rfl
  rw [add_zero, hp.nearest_eq_self] at h
  exact lt_irrefl p h

/-! ## Blocks -/

namespace Block

/-- The values of a block and of the sums over it, all of them finite. -/
structure Values (s : Block Float32) (a b c d : ℚ) : Prop where
  upperLeft : Denotes s.a a
  upperRight : Denotes s.b b
  lowerLeft : Denotes s.c c
  lowerRight : Denotes s.d d
  upper : Denotes (s.a + s.b) (nearest (a + b))
  three : Denotes (s.a + s.b + s.c) (nearest (nearest (a + b) + c))
  sum : Denotes (s.a + s.b + s.c + s.d) (addUp a b c d)

variable {s : Block Float32}

/-- If the sum over a block is finite, so is everything in it. -/
theorem exists_values (ha : ¬ s.a < 0) (hb : ¬ s.b < 0) (hc : ¬ s.c < 0) (hd : ¬ s.d < 0)
    (h : Denotes (s.a + s.b + s.c + s.d) w) : ∃ a b c d, s.Values a b c d ∧ w = addUp a b c d := by
  obtain ⟨p, d, hp, hd, rfl⟩ := h.of_add (not_neg_add (not_neg_add ha hb) hc) hd
  obtain ⟨q, c, hq, hc, rfl⟩ := hp.of_add (not_neg_add ha hb) hc
  obtain ⟨a, b, ha, hb, rfl⟩ := hq.of_add ha hb
  exact ⟨a, b, c, d, ⟨ha, hb, hc, hd, hq, hp, h⟩, rfl⟩

namespace Values

variable (h : s.Values a b c d)
include h

theorem left_le : nearest (a + c) ≤ addUp a b c d :=
  left_le_addUp h.upperLeft.representable h.upperRight.representable h.lowerLeft.nonneg
    h.lowerRight.nonneg

theorem left : Denotes (s.a + s.c) (nearest (a + c)) :=
  (h.upperLeft.add h.lowerLeft).denotes_of_le h.left_le h.sum.lt_limit

theorem right_le : nearest (b + d) ≤ addUp a b c d :=
  right_le_addUp h.upperLeft.representable h.upperRight.representable h.lowerLeft.nonneg
    h.lowerRight.nonneg

theorem right : Denotes (s.b + s.d) (nearest (b + d)) :=
  (h.upperRight.add h.lowerRight).denotes_of_le h.right_le h.sum.lt_limit

theorem cell (right bottom : Bool) :
    Denotes (s.cell right bottom) ((⟨a, b, c, d⟩ : Block ℚ).cell right bottom) := by
  cases right <;> cases bottom
  exacts [h.upperLeft, h.lowerLeft, h.upperRight, h.lowerRight]

/-- A cell is no more than the block. -/
theorem cell_le (right bottom : Bool) :
    (⟨a, b, c, d⟩ : Block ℚ).cell right bottom ≤ addUp a b c d := by
  cases right <;> cases bottom
  · exact (h.upperLeft.representable.le_nearest
      (le_add_of_nonneg_right h.lowerLeft.nonneg)).trans h.left_le
  · exact (h.lowerLeft.representable.le_nearest
      (le_add_of_nonneg_left h.upperLeft.nonneg)).trans h.left_le
  · exact (h.upperRight.representable.le_nearest
      (le_add_of_nonneg_right h.lowerRight.nonneg)).trans h.right_le
  · exact (h.lowerRight.representable.le_nearest
      (le_add_of_nonneg_left h.upperRight.nonneg)).trans h.right_le

/-- One of the cells is at least an eighth of the block. -/
theorem exists_brightest :
    ∃ right bottom, addUp a b c d ≤ (⟨a, b, c, d⟩ : Block ℚ).cell right bottom * 2 ^ 3 := by
  obtain ⟨⟨right, bottom⟩, hmax⟩ :=
    Finite.exists_max fun i : Bool × Bool => (⟨a, b, c, d⟩ : Block ℚ).cell i.1 i.2
  exact ⟨right, bottom, addUp_le h.upperLeft.nonneg h.upperRight.nonneg h.lowerLeft.nonneg
    h.lowerRight.nonneg (h.cell right bottom).representable (hmax (false, false))
    (hmax (true, false)) (hmax (false, true)) (hmax (true, true))⟩

end Values

end Block

/-! ## Tables -/

/-- The cells of a level that a cell of the next level consists of. -/
theorem Layout.two_mul_add_lt {l : Layout} {level x : Nat} (hlevel : level < l.exponent)
    (hx : x < l.levelResolution (level + 1)) (b : Bool) :
    2 * x + b.toNat < l.levelResolution level := by
  have hresolution := l.levelResolution_eq hlevel
  have hb := b.toNat_lt
  omega

namespace Table

variable {t : Table Float32} {level x y : Nat}

theorem block_cell (t : Table Float32) (level x y : Nat) (right bottom : Bool) :
    (t.block level x y).cell right bottom =
      t.value level (2 * x + right.toNat) (2 * y + bottom.toNat) := by
  cases right <;> cases bottom <;> rfl

/-- A table of sums, none of them negative. -/
structure Accumulated (t : Table Float32) : Prop where
  notNegative : ∀ level x y, level ≤ t.layout.exponent → x < t.layout.levelResolution level →
    y < t.layout.levelResolution level → ¬ t.value level x y < 0
  sum : ∀ level x y, level < t.layout.exponent → x < t.layout.levelResolution (level + 1) →
    y < t.layout.levelResolution (level + 1) → t.value (level + 1) x y =
      (t.block level x y).a + (t.block level x y).b + (t.block level x y).c + (t.block level x y).d

/-- A table of importances accumulates them. -/
theorem accumulated_ofCells {l : Layout} {base : Vector Float32 (4 ^ l.exponent)}
    (h : ∀ w ∈ base.toArray, ¬ w < 0) : (ofCells l base).Accumulated := by
  constructor
  · intro level x y (hlevel : level ≤ l.exponent) (hx : x < l.levelResolution level)
      (hy : y < l.levelResolution level)
    have hkept := entry_pyramid_of (p := fun w : Float32 => ¬ w < 0) (not_lt_self 0)
      (fun _ _ => not_neg_add) base h
    rw [value_ofCells hlevel hx hy]
    exact hkept _
  · intro level x y hlevel hx hy
    exact value_succ_ofCells hlevel hx hy

namespace Accumulated

variable (ht : t.Accumulated)
include ht

/-- What a finite value is the sum of. -/
theorem exists_values (hlevel : level < t.layout.exponent)
    (hx : x < t.layout.levelResolution (level + 1)) (hy : y < t.layout.levelResolution (level + 1))
    (h : Denotes (t.value (level + 1) x y) w) :
    ∃ a b c d, (t.block level x y).Values a b c d ∧ w = addUp a b c d := by
  have hnonneg (right bottom : Bool) : ¬ (t.block level x y).cell right bottom < 0 := by
    rw [block_cell]
    exact ht.notNegative level _ _ hlevel.le (Layout.two_mul_add_lt hlevel hx right)
      (Layout.two_mul_add_lt hlevel hy bottom)
  rw [ht.sum level x y hlevel hx hy] at h
  exact Block.exists_values (hnonneg false false) (hnonneg true false) (hnonneg false true)
    (hnonneg true true) h

/-- If the total is finite, so is every value, and no value is more. -/
theorem value_le_total (h : Denotes t.total w) (hlevel : level ≤ t.layout.exponent)
    (hx : x < t.layout.levelResolution level) (hy : y < t.layout.levelResolution level) :
    ∃ q, Denotes (t.value level x y) q ∧ q ≤ w := by
  induction hlevel using Nat.decreasingInduction generalizing x y with
  | self =>
    obtain rfl : x = 0 := by simpa [Layout.levelResolution] using hx
    obtain rfl : y = 0 := by simpa [Layout.levelResolution] using hy
    exact ⟨w, t.value_exponent.symm ▸ h, le_rfl⟩
  | of_succ level hlevel ih =>
    have hresolution := t.layout.levelResolution_eq hlevel
    obtain ⟨q, hq, hqw⟩ := ih (x := x / 2) (y := y / 2) (by omega) (by omega)
    obtain ⟨a, b, c, d, hvalues, rfl⟩ := ht.exists_values hlevel (by omega) (by omega) hq
    have hr := hvalues.cell (decide (x % 2 = 1)) (decide (y % 2 = 1))
    rw [t.cell_block] at hr
    exact ⟨_, hr, (hvalues.cell_le _ _).trans hqw⟩

/-- Below every finite value there is a cell with an eighth of it for every level in between. -/
theorem exists_brightest (hlevel : level ≤ t.layout.exponent)
    (hx : x < t.layout.levelResolution level) (hy : y < t.layout.levelResolution level)
    (h : Denotes (t.value level x y) w) :
    ∃ x' y' q, x' < t.layout.resolution ∧ y' < t.layout.resolution ∧
      Denotes (t.value 0 x' y') q ∧ w ≤ q * 2 ^ (3 * level) := by
  induction level generalizing x y w with
  | zero => exact ⟨x, y, w, hx, hy, h, by simp⟩
  | succ level ih =>
    obtain ⟨a, b, c, d, hvalues, rfl⟩ := ht.exists_values hlevel hx hy h
    obtain ⟨right, bottom, hle⟩ := hvalues.exists_brightest
    have hr := hvalues.cell right bottom
    rw [t.block_cell] at hr
    obtain ⟨x', y', q, hx', hy', hq, hle'⟩ := ih (Nat.le_of_succ_le hlevel)
      (Layout.two_mul_add_lt hlevel hx right) (Layout.two_mul_add_lt hlevel hy bottom) hr
    refine ⟨x', y', q, hx', hy', hq, hle.trans ?_⟩
    rw [Nat.mul_succ, pow_add, ← mul_assoc]
    exact mul_le_mul_of_nonneg_right hle' (by norm_num)

end Accumulated

end Table

end Candela.Environment
