import Mathlib.Algebra.Order.Field.Basic
import Mathlib.Algebra.Order.Ring.Rat
import Mathlib.Tactic.Linarith
import Candela.Proofs.Environment.Pyramid

/-!
# Cells are drawn in proportion to their importance

On its way down a path chooses a half of a block and then a cell of the half, each with a share of
what lies ahead. `Table.stepChance` is the probability of both choices together, and in exact
arithmetic it is the value of the cell over the value of the block (`Table.stepChance_eq`). The
values on the way to a cell cancel, so the probability of the whole path, `Table.chance`, is the
importance of the cell over the total (`Table.Summed.chance_eq`). A path and its end determine each
other's choices: what a run has taken is what leads to the cell where it ends (`Table.prod_taken`).
-/

namespace Candela.Environment

/-! ## The cells of a path -/

section
variable {α : Type} [Add α] [Sub α] [Div α] [LT α] [DecidableLT α] [OfNat α 0] [OfNat α 1]
  [Scalar α]

/-- Whether a path goes right and whether it goes down at some level. -/
def Table.turn (t : Table α) (level : Nat) (c : Cursor α) : Bool × Bool :=
  let q := t.block level c.x c.y
  let right := (choose c.u q.left).1
  (right, (choose c.v (q.top right)).1)

/-- Going down leads to one of the four cells of a cell. -/
theorem Table.descend_cell (t : Table α) (level : Nat) (c : Cursor α) :
    (t.descend level c).x = 2 * c.x + (t.turn level c).1.toNat ∧
      (t.descend level c).y = 2 * c.y + (t.turn level c).2.toNat := ⟨rfl, rfl⟩

/-- A path stays in the cells that it has come to. -/
theorem Table.descendFrom_div (t : Table α) (level : Nat) (c : Cursor α) :
    (t.descendFrom level c).x / 2 ^ level = c.x ∧ (t.descendFrom level c).y / 2 ^ level = c.y := by
  induction level generalizing c with
  | zero => exact ⟨Nat.div_one _, Nat.div_one _⟩
  | succ level ih =>
    obtain ⟨hx, hy⟩ := ih (t.descend level c)
    obtain ⟨hx', hy'⟩ := t.descend_cell level c
    have hright := (t.turn level c).1.toNat_lt
    have hbottom := (t.turn level c).2.toNat_lt
    rw [descendFrom, Nat.pow_succ, ← Nat.div_div_eq_div_mul, ← Nat.div_div_eq_div_mul, hx, hy, hx',
      hy']
    omega

/-- A path ends in a cell of the square. -/
theorem Table.path_lt (t : Table α) (u v : α) :
    (t.path u v).x < t.layout.resolution ∧ (t.path u v).y < t.layout.resolution := by
  obtain ⟨hx, hy⟩ := t.descendFrom_div t.layout.exponent ⟨0, 0, u, v⟩
  exact ⟨(Nat.div_eq_zero_iff_lt (Nat.two_pow_pos _)).1 hx,
    (Nat.div_eq_zero_iff_lt (Nat.two_pow_pos _)).1 hy⟩

end

/-- The values of a table are read where they are stored. -/
theorem Table.getElem?_cell {α : Type} [OfNat α 0] (t : Table α) {level x y : Nat}
    (hlevel : level ≤ t.layout.exponent) (hx : x < t.layout.levelResolution level)
    (hy : y < t.layout.levelResolution level) :
    t.data[t.layout.cell level x y]? = some (t.value level x y) := by
  have hcell : t.layout.cell level x y < t.data.size := by
    rw [t.size_data]
    exact (t.layout.cell_lt hlevel hx hy).trans_le (Nat.le_add_right _ _)
  simp [value, entry, Array.getD_eq_getD_getElem?, hcell]

/-- The density of a cell is read where it is stored. -/
theorem Table.cellPdf_eq {α : Type} [OfNat α 0] (t : Table α) {x y : Nat}
    (hx : x < t.layout.resolution) (hy : y < t.layout.resolution) :
    ∃ h : t.layout.pdfCell x y < t.data.size, t.cellPdf x y = t.data[t.layout.pdfCell x y] := by
  have h : t.layout.pdfCell x y < t.data.size := t.size_data ▸ t.layout.pdfCell_lt hx hy
  exact ⟨h, by simp [cellPdf, entry, Array.getD_eq_getD_getElem?, h]⟩

/-- A share of something is a quotient. -/
theorem share_of_pos {α : Type} [Add α] [Div α] [LT α] [DecidableLT α] [OfNat α 0] [OfNat α 1]
    {part whole : α} (h : 0 < whole) : share part whole = part / whole := if_pos h

/-- What is not a share of something is the share of the rest. -/
theorem one_sub_share {α : Type} [Field α] [LinearOrder α] {part rest whole : α} (h : 0 < whole)
    (hrest : whole = part + rest) : 1 - share part whole = rest / whole := by
  rw [share_of_pos h, one_sub_div h.ne', hrest, add_sub_cancel_left]

/-! ## Probabilities -/

section
variable {α : Type} [Field α] [LinearOrder α]

/-- One of the four cells of a block. -/
def Block.cell (q : Block α) (right bottom : Bool) : α :=
  match right, bottom with
  | false, false => q.a
  | true, false => q.b
  | false, true => q.c
  | true, true => q.d

/-- A cell of a level belongs to a block of the next one. -/
theorem Table.cell_block {α : Type} [OfNat α 0] (t : Table α) (level x y : Nat) :
    (t.block level (x / 2) (y / 2)).cell (decide (x % 2 = 1)) (decide (y % 2 = 1)) =
      t.value level x y := by
  rcases Nat.mod_two_eq_zero_or_one x with hx | hx <;>
    rcases Nat.mod_two_eq_zero_or_one y with hy | hy
  · have hx' : 2 * (x / 2) = x := by omega
    have hy' : 2 * (y / 2) = y := by omega
    simp [block, Block.cell, hx, hy, hx', hy']
  · have hx' : 2 * (x / 2) = x := by omega
    have hy' : 2 * (y / 2) + 1 = y := by omega
    simp [block, Block.cell, hx, hy, hx', hy']
  · have hx' : 2 * (x / 2) + 1 = x := by omega
    have hy' : 2 * (y / 2) = y := by omega
    simp [block, Block.cell, hx, hy, hx', hy']
  · have hx' : 2 * (x / 2) + 1 = x := by omega
    have hy' : 2 * (y / 2) + 1 = y := by omega
    simp [block, Block.cell, hx, hy, hx', hy']

/-- The sum over the four cells. -/
def Block.sum (q : Block α) : α := q.a + q.b + q.c + q.d

/-- The probability of a half and of a cell in the half. -/
def Block.chance (q : Block α) (right bottom : Bool) : α :=
  (if right then 1 - q.left else q.left) *
    if bottom then 1 - q.top right else q.top right

/-- The probability of the choices that lead to a cell of a level from the next one. -/
def Table.stepChance (t : Table α) (level x y : Nat) : α :=
  (t.block level (x / 2) (y / 2)).chance (decide (x % 2 = 1)) (decide (y % 2 = 1))

/-- The probability of the path to a cell: all choices that lead there. -/
def Table.chance (t : Table α) (x y : Nat) : α :=
  ∏ level ∈ Finset.range t.layout.exponent, t.stepChance level (x / 2 ^ level) (y / 2 ^ level)

variable [Scalar α]

/-- The probabilities of what a path chooses, level by level. -/
def Table.taken (t : Table α) : Nat → Cursor α → List α
  | 0, _ => []
  | level + 1, c =>
    (t.block level c.x c.y).chance (t.turn level c).1 (t.turn level c).2 ::
      t.taken level (t.descend level c)

/-- A step of a path makes the choices that lead to the cell where it comes to. -/
theorem Table.stepChance_descend (t : Table α) (level : Nat) (c : Cursor α) :
    t.stepChance level (t.descend level c).x (t.descend level c).y =
      (t.block level c.x c.y).chance (t.turn level c).1 (t.turn level c).2 := by
  obtain ⟨hx, hy⟩ := t.descend_cell level c
  have hhalf : ∀ (n : Nat) (b : Bool), (2 * n + b.toNat) / 2 = n ∧
      decide ((2 * n + b.toNat) % 2 = 1) = b := by
    intro n b
    cases b with
    | false => exact ⟨by simp, by simp⟩
    | true => exact ⟨by simp [Nat.mul_add_div], by simp⟩
  rw [stepChance, hx, hy, (hhalf _ _).1, (hhalf _ _).1, (hhalf _ _).2, (hhalf _ _).2]

/-- What a path chooses is what leads to the cell where it ends. -/
theorem Table.prod_taken (t : Table α) (n : Nat) (c : Cursor α) :
    (t.taken n c).prod = ∏ level ∈ Finset.range n, t.stepChance level
      ((t.descendFrom n c).x / 2 ^ level) ((t.descendFrom n c).y / 2 ^ level) := by
  induction n generalizing c with
  | zero => rfl
  | succ n ih =>
    obtain ⟨hx, hy⟩ := t.descendFrom_div n (t.descend n c)
    rw [taken, List.prod_cons, ih, descendFrom, Finset.prod_range_succ, hx, hy,
      t.stepChance_descend, mul_comm]

end

/-! ## What a table holds -/

section
variable {α : Type} [OfNat α 0] [Add α] [Mul α] [Div α] [LT α] [DecidableLT α] [Scalar α]
  {l : Layout} {base : Vector α (4 ^ l.exponent)} {level x y : Nat}

/-- The values of a table are those of its pyramid. -/
theorem Table.value_ofCells (hlevel : level ≤ l.exponent) (hx : x < l.levelResolution level)
    (hy : y < l.levelResolution level) :
    (ofCells l base).value level x y = levelValue l.exponent base level x y := by
  show entry (pyramid l.exponent base ++ _) (l.cell level x y) = _
  rw [entry_append, size_pyramid_eq, if_pos (l.cell_lt hlevel hx hy)]
  rfl

/-- A value of a table is the sum of the four values below it. -/
theorem Table.value_succ_ofCells (hlevel : level < l.exponent)
    (hx : x < l.levelResolution (level + 1)) (hy : y < l.levelResolution (level + 1)) :
    (ofCells l base).value (level + 1) x y =
      ((ofCells l base).block level x y).a + ((ofCells l base).block level x y).b +
        ((ofCells l base).block level x y).c + ((ofCells l base).block level x y).d := by
  have hresolution := l.levelResolution_eq hlevel
  unfold block
  rw [value_ofCells hlevel hx hy, levelValue_eq_add base hlevel hx hy,
    value_ofCells (Nat.le_of_lt hlevel) (by omega) (by omega),
    value_ofCells (Nat.le_of_lt hlevel) (by omega) (by omega),
    value_ofCells (Nat.le_of_lt hlevel) (by omega) (by omega),
    value_ofCells (Nat.le_of_lt hlevel) (by omega) (by omega)]

/-- The last value of a table is its total. -/
theorem Table.value_exponent {α : Type} [OfNat α 0] (t : Table α) :
    t.value t.layout.exponent 0 0 = t.total := by
  rw [value, Layout.cell_exponent]
  rfl

/-- The total of a table of exact numbers is the sum of the importances. -/
theorem Table.total_ofCells {α : Type} [Field α] [LinearOrder α] [Scalar α]
    {base : Vector α (4 ^ l.exponent)} :
    (ofCells l base).total = base.toArray.toList.sum := by
  have hrange : Finset.range base.toArray.size = Finset.range (4 ^ l.exponent) := by
    rw [Vector.size_toArray]
  rw [sum_toList, hrange, ← levelValue_total, ← value_exponent]
  exact value_ofCells (Nat.le_refl l.exponent) (Nat.two_pow_pos _) (Nat.two_pow_pos _)

/-- A table begins with the importances. -/
theorem Table.getElem?_ofCells {i : Nat} (hi : i < 4 ^ l.exponent) :
    (ofCells l base).data[i]? = some base[i] := by
  have hcells : i < (pyramid l.exponent base).size := by
    have hsize := size_pyramid l.exponent base
    have hpow : 4 ^ (l.exponent + 1) = 4 * 4 ^ l.exponent := Nat.pow_succ'
    omega
  show (pyramid l.exponent base ++ _)[i]? = _
  rw [Array.getElem?_append, if_pos hcells, getElem?_pyramid base hi]
  simp [hi]

/-- The densities stand behind the levels. -/
theorem Table.getElem?_pdfOffset {i : Nat} (hi : i < 4 ^ l.exponent) :
    (ofCells l base).data[l.pdfOffset + i]? =
      some (density (4 ^ l.exponent) (ofCells l base).total base[i]) := by
  have htotal : entry (pyramid l.exponent base) l.totalOffset = (ofCells l base).total := by
    rw [← value_exponent, ← Layout.cell_exponent]
    exact (value_ofCells (Nat.le_refl l.exponent) (Nat.two_pow_pos _) (Nat.two_pow_pos _)).symm
  rw [← htotal]
  show (pyramid l.exponent base ++ _)[l.pdfOffset + i]? = _
  rw [Array.getElem?_append, size_pyramid_eq, if_neg (by omega), Nat.add_sub_cancel_left]
  simp [hi]

/-- The densities of a table are those of the importances. -/
theorem Table.cellPdf_ofCells (hx : x < l.resolution) (hy : y < l.resolution) :
    (ofCells l base).cellPdf x y =
      density (4 ^ l.exponent) (ofCells l base).total ((ofCells l base).value 0 x y) := by
  have hcell : y * l.resolution + x < 4 ^ l.exponent := by
    rw [← Layout.two_pow_mul_self]
    exact Layout.mul_add_lt hx hy
  have hvalue : (ofCells l base).value 0 x y = base[y * l.resolution + x] := by
    rw [value_ofCells (Nat.zero_le _) hx hy, levelValue_zero base hx hy]
    exact entry_toArray base hcell
  have hpdf : (ofCells l base).data[l.pdfCell x y]? =
      some (density (4 ^ l.exponent) (ofCells l base).total base[y * l.resolution + x]) :=
    getElem?_pdfOffset hcell
  rw [hvalue, cellPdf, entry, Array.getD_eq_getD_getElem?]
  exact congrArg (·.getD 0) hpdf

end

variable {α : Type} [Field α] [LinearOrder α] [IsStrictOrderedRing α] {t : Table α}
  {level x y : Nat}

/-! ## Blocks -/

namespace Block

variable {q : Block α} {right bottom : Bool}

/-- A block with a cell that is not empty is not empty. -/
theorem sum_pos (h : ∀ right bottom, 0 ≤ q.cell right bottom) (hpos : 0 < q.cell right bottom) :
    0 < q.sum := by
  have ha : 0 ≤ q.a := h false false
  have hb : 0 ≤ q.b := h true false
  have hc : 0 ≤ q.c := h false true
  have hd : 0 ≤ q.d := h true true
  unfold sum
  cases right <;> cases bottom <;> simp only [cell] at hpos <;> linarith

/-- In exact arithmetic, a cell is chosen in proportion to its value. -/
theorem chance_eq (h : ∀ right bottom, 0 ≤ q.cell right bottom)
    (hpos : 0 < q.cell right bottom) : q.chance right bottom = q.cell right bottom / q.sum := by
  let half := q.cell right false + q.cell right true
  have hhalf : 0 < half := by
    cases bottom with
    | false => exact add_pos_of_pos_of_nonneg hpos (h right true)
    | true => exact add_pos_of_nonneg_of_pos (h right false) hpos
  have hsumPos : 0 < q.sum := sum_pos h hpos
  have hchosenHalf : (if right then 1 - q.left else q.left) = half / q.sum := by
    cases right with
    | false => exact share_of_pos hsumPos
    | true =>
      refine one_sub_share hsumPos ?_
      simp only [half, cell]
      ring
  have hchosenCell : (if bottom then 1 - q.top right else q.top right) =
      q.cell right bottom / half := by
    cases right with
    | false =>
      cases bottom with
      | false => exact share_of_pos hhalf
      | true => exact one_sub_share hhalf rfl
    | true =>
      cases bottom with
      | false => exact share_of_pos hhalf
      | true => exact one_sub_share hhalf rfl
  rw [chance, hchosenHalf, hchosenCell, mul_comm, div_mul_div_cancel₀ hhalf.ne']

end Block

/-! ## Tables of sums -/

namespace Table

/-- A table whose values are the sums of the four values below them, and not negative. -/
structure Summed (t : Table α) : Prop where
  nonneg : ∀ level x y, level ≤ t.layout.exponent → x < t.layout.levelResolution level →
    y < t.layout.levelResolution level → 0 ≤ t.value level x y
  sum : ∀ level x y, level < t.layout.exponent → x < t.layout.levelResolution (level + 1) →
    y < t.layout.levelResolution (level + 1) → t.value (level + 1) x y = (t.block level x y).sum

/-- The choices that lead to a cell are made in proportion to its value, and the cell of the next
level is not empty either. -/
theorem Summed.stepChance_eq (h : t.Summed) (hlevel : level < t.layout.exponent)
    (hx : x < t.layout.levelResolution level) (hy : y < t.layout.levelResolution level)
    (hpos : 0 < t.value level x y) :
    t.stepChance level x y = t.value level x y / t.value (level + 1) (x / 2) (y / 2) ∧
      0 < t.value (level + 1) (x / 2) (y / 2) := by
  have hresolution := t.layout.levelResolution_eq hlevel
  have hcells : ∀ right bottom, 0 ≤ (t.block level (x / 2) (y / 2)).cell right bottom := by
    intro right bottom
    cases right <;> cases bottom <;>
      exact h.nonneg level _ _ (Nat.le_of_lt hlevel) (by omega) (by omega)
  rw [← t.cell_block] at hpos
  rw [stepChance, Block.chance_eq hcells hpos, t.cell_block,
    h.sum level _ _ hlevel (by omega) (by omega)]
  exact ⟨rfl, Block.sum_pos hcells hpos⟩

/-- Cells of the square are in cells of every level. -/
theorem div_lt_levelResolution {l : Layout} (hlevel : level ≤ l.exponent) (hx : x < l.resolution) :
    x / 2 ^ level < l.levelResolution level := by
  refine Nat.div_lt_of_lt_mul ?_
  show x < 2 ^ level * 2 ^ (l.exponent - level)
  rwa [← Nat.pow_add, Nat.add_sub_cancel' hlevel]

/-- The values on the way to a cell cancel. -/
theorem Summed.prod_stepChance (h : t.Summed) (hx : x < t.layout.resolution)
    (hy : y < t.layout.resolution) (hpos : 0 < t.value 0 x y) (n : Nat)
    (hn : n ≤ t.layout.exponent) :
    ∏ level ∈ Finset.range n, t.stepChance level (x / 2 ^ level) (y / 2 ^ level) =
        t.value 0 x y / t.value n (x / 2 ^ n) (y / 2 ^ n) ∧
      0 < t.value n (x / 2 ^ n) (y / 2 ^ n) := by
  induction n with
  | zero =>
    rw [Finset.prod_range_zero, Nat.pow_zero, Nat.div_one, Nat.div_one, div_self hpos.ne']
    exact ⟨rfl, hpos⟩
  | succ n ih =>
    obtain ⟨hprod, hvalue⟩ := ih (Nat.le_of_succ_le hn)
    obtain ⟨hstep, hnext⟩ := h.stepChance_eq hn (div_lt_levelResolution (Nat.le_of_succ_le hn) hx)
      (div_lt_levelResolution (Nat.le_of_succ_le hn) hy) hvalue
    rw [Nat.div_div_eq_div_mul, Nat.div_div_eq_div_mul, ← Nat.pow_succ] at hstep hnext
    refine ⟨?_, hnext⟩
    rw [Finset.prod_range_succ, hprod, hstep, div_mul_div_cancel₀ hvalue.ne']

/-- The probability of the path to a cell is its value over the total. -/
theorem Summed.chance_eq (h : t.Summed) (hx : x < t.layout.resolution)
    (hy : y < t.layout.resolution) (hpos : 0 < t.value 0 x y) :
    t.chance x y = t.value 0 x y / t.total := by
  have hx' : x / 2 ^ t.layout.exponent = 0 := Nat.div_eq_of_lt hx
  have hy' : y / 2 ^ t.layout.exponent = 0 := Nat.div_eq_of_lt hy
  rw [chance, (h.prod_stepChance hx hy hpos _ (Nat.le_refl _)).1, hx', hy', value_exponent]

/-- The values of a table of importances are sums. -/
theorem summed_ofCells [Scalar α] {l : Layout} {base : Vector α (4 ^ l.exponent)}
    (h : ∀ w ∈ base.toArray, 0 ≤ w) : (ofCells l base).Summed := by
  constructor
  · intro level x y (hlevel : level ≤ l.exponent) (hx : x < l.levelResolution level)
      (hy : y < l.levelResolution level)
    rw [value_ofCells hlevel hx hy]
    exact entry_pyramid_of le_rfl (fun _ _ => add_nonneg) base h _
  · intro level x y hlevel hx hy
    exact value_succ_ofCells hlevel hx hy

/-! ## Main result -/

/-- In exact arithmetic, the table of importances that are not negative and not all zero has, for
every cell of positive importance, a path whose probability is the importance over the total, and
the density of the cell is this probability for each of the cells over the solid angle of the
sphere. Whatever numbers a path starts from, it ends in a cell of the square, and what it has chosen
is what leads to this cell. The density that comes with a direction is the one that is stored for
the cell where the path has ended. -/
theorem ofImportance_chance [Scalar α] (hcount : ∀ n : Nat, (Scalar.ofCount n : α) = n) (l : Layout)
    (base : Array α) (hsize : base.size = 4 ^ l.exponent) (hbase : ∀ w ∈ base, 0 ≤ w)
    (htotal : 0 < base.toList.sum) :
    (∃ t, ofImportance l base = .ok t ∧ t.layout = l ∧
      (∀ x y w, x < l.resolution → y < l.resolution → base[y * l.resolution + x]? = some w →
        0 < w → t.chance x y = w / base.toList.sum ∧
          t.cellPdf x y = t.chance x y * (l.resolution * l.resolution) * Scalar.perSphere) ∧
      ∀ u v, (t.path u v).x < l.resolution ∧ (t.path u v).y < l.resolution ∧
        (t.taken l.exponent ⟨0, 0, u, v⟩).prod = t.chance (t.path u v).x (t.path u v).y) ∧
    ∀ (t : Table Float32) (u v : Float32) (x y : Nat), (t.path u v).x = x → (t.path u v).y = y →
      ∃ h : t.layout.pdfCell x y < t.data.size,
        (t.sample u v).2 = t.data[t.layout.pdfCell x y] := by
  constructor
  · let cells : Vector α (4 ^ l.exponent) := ⟨base, hsize⟩
    have hsummed : (ofCells l cells).Summed := summed_ofCells hbase
    refine ⟨ofCells l cells, dif_pos hsize, rfl, fun x y w hx hy hw hpos => ?_, fun u v => ?_⟩
    · have hvalue : (ofCells l cells).value 0 x y = w := by
        rw [value_ofCells (Nat.zero_le _) hx hy, levelValue_zero cells hx hy]
        simp only [entry, Array.getD_eq_getD_getElem?]
        show base[y * l.resolution + x]?.getD 0 = w
        rw [hw, Option.getD_some]
      have hchance : (ofCells l cells).chance x y = w / base.toList.sum := by
        rw [hsummed.chance_eq hx hy (hvalue ▸ hpos), hvalue, total_ofCells]
      refine ⟨hchance, ?_⟩
      have hcells : ((4 ^ l.exponent : Nat) : α) = l.resolution * l.resolution := by
        rw [← Layout.two_pow_mul_self, Nat.cast_mul]
        rfl
      rw [cellPdf_ofCells hx hy, density, total_ofCells, if_pos htotal, hcount, hcells, hchance,
        hvalue]
    · exact ⟨((ofCells l cells).path_lt u v).1, ((ofCells l cells).path_lt u v).2,
        prod_taken _ _ _⟩
  · rintro t u v x y rfl rfl
    obtain ⟨hx, hy⟩ := t.path_lt u v
    exact t.cellPdf_eq hx hy

/-- Rational numbers, with a rational number for what one over the solid angle of the sphere is. -/
instance : Scalar Rat := ⟨fun n => n, 7 / 88, 1 - 1 / 2 ^ 24⟩

/-- A square of four cells, a path in it, and the cell where the path ends. -/
theorem chance_half : ∃ t : Table Rat, ofImportance ⟨1⟩ #[1, 2, 3, 0] = .ok t ∧
    (t.path (1 / 4) (3 / 4)).x = 0 ∧ (t.path (1 / 4) (3 / 4)).y = 1 ∧ t.chance 0 1 = 1 / 2 ∧
      t.cellPdf 0 1 = 1 / 2 * (2 * 2) * (7 / 88) := by
  obtain ⟨⟨t, ht, hlayout, hcells, -⟩, -⟩ := ofImportance_chance (fun _ => rfl) ⟨1⟩
    (#[1, 2, 3, 0] : Array Rat) rfl (by decide) (by decide +kernel)
  obtain ⟨hchance, hpdf⟩ := hcells 0 1 3 (by decide) (by decide) rfl (by decide)
  refine ⟨t, ht, ?_, ?_, ?_, ?_⟩
  · cases ht
    decide +kernel
  · cases ht
    decide +kernel
  · rw [hchance]
    decide +kernel
  · rw [hpdf, hchance]
    decide +kernel

end Table

end Candela.Environment
