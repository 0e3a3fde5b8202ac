import Mathlib
import Candela.Environment.Strict
import Candela.Proofs.Environment.Density

/-!
# No black cell is chosen

The sum over a block and the sum over its left half are not rounded in the same way, and neither are
the shares. Still a half is chosen only if there is something in it: a share that a number is below
is not zero, and a share that it is not below is not one (`share_spec`), so what lies beyond is not
lost by rounding (`right_pos`). On its way down a path stays in cells with something in them
(`Table.Lit`), and no step divides by zero or gives what is no number (`Table.Accumulated.descend`).
-/

namespace Candela.Environment

open Single

variable {a b c d p q w : ℚ} {x y u v : Float32}

/-! ## Steps -/

/-- What is rounded is a number. -/
theorem number?_of_nearest (h : Nearest x q) : number? x = some x := by
  have hnan : x.isNaN = false := by
    unfold Nearest at h
    split at h
    · exact h.isNaN_eq_false
    · exact (isNaN_of_le (zero_le_iff.2 (.inr h))).2
  rw [number?, hnan]
  rfl

theorem number?_of_denotes (h : Denotes x q) : number? x = some x := by
  rw [number?, h.isNaN_eq_false]
  rfl

theorem quotient?_of_pos (hx : Denotes x p) (hy : Denotes y q) (hq : 0 < q) :
    quotient? x y = some (x / y) := by
  have hpos : 0 < y := (denotes_zero.lt_iff hy).2 hq
  rw [quotient?, if_pos (.inr hpos)]
  exact number?_of_nearest (hx.div hy hq)

/-- A share is a number between zero and one; it is zero only if nothing is shared, and one only if
all is. -/
theorem share_spec (hx : Denotes x p) (hy : Denotes y w) (hw : 0 < w) (hle : p ≤ w) :
    share? x y = some (share x y) ∧ ∃ r, Denotes (share x y) r ∧ r ≤ 1 ∧
      (0 < r → 0 < p) ∧ (r < 1 → p < w) := by
  have hpos : 0 < y := (denotes_zero.lt_iff hy).2 hw
  have hone : nearest (p / w) ≤ 1 :=
    Representable.one.nearest_le (div_nonneg hx.nonneg hw.le) ((div_le_one hw).2 hle)
  rw [share?, share, if_pos hpos, if_pos hpos]
  refine ⟨quotient?_of_pos hx hy hw, nearest (p / w),
    (hx.div hy hw).denotes_of_le hone denotes_one.lt_limit, hone, fun h => ?_, fun h => ?_⟩
  · refine hx.nonneg.lt_of_ne ?_
    rintro rfl
    rw [zero_div, nearest_zero] at h
    exact lt_irrefl 0 h
  · refine hle.lt_of_ne ?_
    rintro rfl
    rw [div_self hw.ne', Representable.one.nearest_eq_self] at h
    exact lt_irrefl 1 h

/-- A half is chosen only if its share is not zero. -/
theorem choose_spec (hu : Denotes u q) (hq : q < 1) (hy : Denotes y p) :
    choose? u y = some (choose u y) ∧ ((choose u y).1 = false → 0 < p) ∧
      ((choose u y).1 = true → p < 1) := by
  rw [choose?, choose]
  by_cases hlt : u < y
  · have hpos : 0 < p := hu.nonneg.trans_lt ((hu.lt_iff hy).1 hlt)
    rw [if_pos hlt, if_pos hlt, quotient?_of_pos hu hy hpos]
    exact ⟨rfl, fun _ => hpos, nofun⟩
  · have hle : p ≤ q := not_lt.1 (mt (hu.lt_iff hy).2 hlt)
    have hone : p < 1 := hle.trans_lt hq
    have hrest := hu.sub hy hle
    have hwidth := denotes_one.sub hy hone.le
    have hrest' : nearest (q - p) ≤ q :=
      hu.representable.nearest_le (sub_nonneg.2 hle) (sub_le_self q hy.nonneg)
    have hwidth' : nearest (1 - p) ≤ 1 :=
      Representable.one.nearest_le (sub_nonneg.2 hone.le) (sub_le_self 1 hy.nonneg)
    rw [if_neg hlt, if_neg hlt, number?_of_nearest hrest, number?_of_nearest hwidth]
    refine ⟨?_, nofun, fun _ => hone⟩
    show (quotient? (u - y) (1 - y)).bind _ = _
    rw [quotient?_of_pos (hrest.denotes_of_le hrest' hu.lt_limit)
      (hwidth.denotes_of_le hwidth' denotes_one.lt_limit)
      (hy.representable.nearest_sub_pos .one hone)]
    rfl

/-- A number from zero to below one. -/
def IsUnit (u : Float32) : Prop := ∃ q, Denotes u q ∧ q < 1

theorem isUnit_of_lt (h : 0 ≤ u) (hlt : u < 1) : IsUnit u := by
  obtain ⟨q, hq⟩ := exists_denotes_of_lt h hlt
  exact ⟨q, hq, (hq.lt_iff denotes_one).1 hlt⟩

/-- What is left of a number is kept below one. -/
theorem isUnit_keepBelowOne (u : Float32) : IsUnit (keepBelowOne u) := by
  have hbelow : Denotes (Scalar.belowOne : Float32) (16777215 * 2 ^ (-24 : ℤ)) := by
    unfold Denotes
    decide +kernel
  have hone : (16777215 * 2 ^ (-24 : ℤ) : ℚ) < 1 := by norm_num
  have hkept : 0 ≤ (if 0 < u then u else 0) := by
    split
    · next hpos => exact le_of_lt hpos
    · exact le_self denotes_zero.isNaN_eq_false
  unfold keepBelowOne
  dsimp only
  generalize (if 0 < u then u else 0) = w at *
  split
  · next hlt =>
    obtain ⟨q, hq⟩ := exists_denotes_of_lt hkept hlt
    exact ⟨q, hq, ((hq.lt_iff hbelow).1 hlt).trans hone⟩
  · exact ⟨_, hbelow, hone⟩

/-! ## Blocks -/

namespace Block.Values

variable {s : Block Float32} (h : s.Values a b c d)
include h

/-- The left half is chosen only if there is something in it, and so is the right half. -/
theorem left_spec (hpos : 0 < addUp a b c d) :
    s.left? = some s.left ∧ ∃ r, Denotes s.left r ∧ (0 < r → 0 < nearest (a + c)) ∧
      (r < 1 → 0 < nearest (b + d)) := by
  obtain ⟨hshare, r, hr, -, hzero, hone⟩ := share_spec h.left h.sum hpos h.left_le
  refine ⟨?_, r, hr, hzero, fun hlt => ?_⟩
  · rw [left?, number?_of_denotes h.left, number?_of_denotes h.upper]
    show (number? (s.a + s.b + s.c)).bind _ = _
    rw [number?_of_denotes h.three]
    show (number? (s.a + s.b + s.c + s.d)).bind _ = _
    rw [number?_of_denotes h.sum]
    exact hshare
  · exact right_pos h.upperLeft.representable h.upperRight.representable h.lowerLeft.nonneg
      h.lowerRight.representable (hone hlt)

/-- In a half with something in it, a cell is chosen only if there is something in it. -/
theorem top_spec (right : Bool)
    (hpos : 0 < if right then nearest (b + d) else nearest (a + c)) :
    s.top? right = some (s.top right) ∧ ∃ r, Denotes (s.top right) r ∧
      (0 < r → 0 < s.cell right false) ∧ (r < 1 → 0 < s.cell right true) := by
  have hcolumn {x y : Float32} {p q : ℚ} (hx : Denotes x p) (hy : Denotes y q)
      (hsum : Denotes (x + y) (nearest (p + q))) (hpos : 0 < nearest (p + q)) :
      share? x (x + y) = some (share x (x + y)) ∧ ∃ r, Denotes (share x (x + y)) r ∧
        (0 < r → 0 < x) ∧ (r < 1 → 0 < y) := by
    have hle : p ≤ nearest (p + q) :=
      hx.representable.le_nearest (le_add_of_nonneg_right hy.nonneg)
    obtain ⟨hshare, r, hr, -, hzero, hone⟩ := share_spec hx hsum hpos hle
    refine ⟨hshare, r, hr, fun h => (denotes_zero.lt_iff hx).2 (hzero h), fun h => ?_⟩
    exact (denotes_zero.lt_iff hy).2 (second_pos hx.representable hy.nonneg (hone h))
  rw [top?, top]
  cases right with
  | false =>
    simp only [Bool.false_eq_true, if_false] at hpos ⊢
    rw [number?_of_denotes h.left]
    exact hcolumn h.upperLeft h.lowerLeft h.left hpos
  | true =>
    simp only [if_true] at hpos ⊢
    rw [number?_of_denotes h.right]
    exact hcolumn h.upperRight h.lowerRight h.right hpos

/-- Where there is something in a block, a cell with something in it is chosen, and every step on
the way gives a number. -/
theorem choices (hpos : 0 < addUp a b c d) (hu : IsUnit u) (hv : IsUnit v) :
    s.left? = some s.left ∧ choose? u s.left = some (choose u s.left) ∧
      s.top? (choose u s.left).1 = some (s.top (choose u s.left).1) ∧
      choose? v (s.top (choose u s.left).1) = some (choose v (s.top (choose u s.left).1)) ∧
      0 < s.cell (choose u s.left).1 (choose v (s.top (choose u s.left).1)).1 := by
  obtain ⟨p, hu, hp⟩ := hu
  obtain ⟨q, hv, hq⟩ := hv
  obtain ⟨hleft, r, hr, hleftPos, hrightPos⟩ := h.left_spec hpos
  obtain ⟨hchoose, hlow, hhigh⟩ := choose_spec hu hp hr
  generalize (choose u s.left).1 = right at *
  have hhalf : 0 < if right then nearest (b + d) else nearest (a + c) := by
    cases right with
    | false => exact hleftPos (hlow rfl)
    | true => exact hrightPos (hhigh rfl)
  obtain ⟨htop, r', hr', hupperPos, hlowerPos⟩ := h.top_spec right hhalf
  obtain ⟨hchoose', hlow', hhigh'⟩ := choose_spec hv hq hr'
  refine ⟨hleft, hchoose, htop, hchoose', ?_⟩
  generalize (choose v (s.top right)).1 = bottom at *
  cases bottom with
  | false => exact hupperPos (hlow' rfl)
  | true => exact hlowerPos (hhigh' rfl)

end Block.Values

/-! ## Paths -/

namespace Table

variable {t : Table Float32} {level m n : Nat} {k : Cursor Float32}

/-- Values are read in the table. -/
theorem value?_eq (t : Table Float32) (hlevel : level ≤ t.layout.exponent)
    (hm : m < t.layout.levelResolution level) (hn : n < t.layout.levelResolution level) :
    t.value? level m n = number? (t.value level m n) := by
  rw [value?, t.getElem?_cell hlevel hm hn]
  rfl

/-- A path has come to a cell with something in it. -/
structure Lit (t : Table Float32) (level : Nat) (k : Cursor Float32) : Prop where
  x_lt : k.x < t.layout.levelResolution level
  y_lt : k.y < t.layout.levelResolution level
  finite : ∃ w, Denotes (t.value level k.x k.y) w
  pos : 0 < t.value level k.x k.y
  u : IsUnit k.u
  v : IsUnit k.v

/-- A step from a cell with something in it leads to a cell with something in it. -/
theorem Accumulated.descend (ht : t.Accumulated) (hlevel : level < t.layout.exponent)
    (h : t.Lit (level + 1) k) :
    t.descend? level k = some (t.descend level k) ∧ t.Lit level (t.descend level k) := by
  obtain ⟨hx, hy, ⟨w, hw⟩, hpos, hu, hv⟩ := h
  have hpos := (denotes_zero.lt_iff hw).1 hpos
  obtain ⟨a, b, c, d, hvalues, rfl⟩ := ht.exists_values hlevel hx hy hw
  -- what is read are the four values
  have hread (right bottom : Bool) :
      t.value? level (2 * k.x + right.toNat) (2 * k.y + bottom.toNat) =
        some ((t.block level k.x k.y).cell right bottom) := by
    rw [t.value?_eq hlevel.le (Layout.two_mul_add_lt hlevel hx right)
      (Layout.two_mul_add_lt hlevel hy bottom), ← block_cell]
    exact number?_of_denotes (hvalues.cell right bottom)
  have hblock : t.block? level k.x k.y = some (t.block level k.x k.y) := by
    have ha := hread false false
    have hb := hread true false
    have hc := hread false true
    have hd := hread true true
    simp only [Bool.toNat_false, Bool.toNat_true, Nat.add_zero] at ha hb hc hd
    rw [block?, ha, hb, hc, hd]
    rfl
  obtain ⟨hleft, hchoose, htop, hchoose', hchosen⟩ := hvalues.choices hpos hu hv
  have hnext := t.block_cell level k.x k.y (t.turn level k).1 (t.turn level k).2
  refine ⟨?_, Layout.two_mul_add_lt hlevel hx (t.turn level k).1,
    Layout.two_mul_add_lt hlevel hy (t.turn level k).2, ?_, ?_, isUnit_keepBelowOne _,
    isUnit_keepBelowOne _⟩
  · rw [descend?, hblock]
    show (Block.left? _).bind _ = _
    rw [hleft]
    show (choose? _ _).bind _ = _
    rw [hchoose]
    show (Block.top? _ _).bind _ = _
    rw [htop]
    show (choose? _ _).bind _ = _
    rw [hchoose']
    rfl
  · exact ⟨_, hnext ▸ hvalues.cell (t.turn level k).1 (t.turn level k).2⟩
  · exact lt_of_lt_of_eq hchosen hnext

/-- So does every path. -/
theorem Accumulated.descendFrom (ht : t.Accumulated) (hlevel : level ≤ t.layout.exponent)
    (h : t.Lit level k) :
    t.descendFrom? level k = some (t.descendFrom level k) ∧ t.Lit 0 (t.descendFrom level k) := by
  induction level generalizing k with
  | zero => exact ⟨rfl, h⟩
  | succ level ih =>
    obtain ⟨hstep, hnext⟩ := ht.descend hlevel h
    obtain ⟨hrun, hend⟩ := ih (Nat.le_of_succ_le hlevel) hnext
    refine ⟨?_, hend⟩
    rw [descendFrom?, hstep]
    exact hrun

/-! ## Points -/

/-- Counts that are not too large are numbers, and so are their sums with numbers below one. -/
theorem denotes_ofNat (h : n ≤ 2 ^ 30) : Denotes (Float32.ofNat n) (nearest n) ∧
    nearest n ≤ 2 ^ (30 : ℤ) := by
  have hle : nearest n ≤ 2 ^ (30 : ℤ) :=
    (Representable.two_zpow (by decide)).nearest_le n.cast_nonneg (by exact_mod_cast h)
  exact ⟨(nearest_ofNat n).denotes_of_le hle
    (zpow_lt_zpow_right₀ one_lt_two (by decide)), hle⟩

/-- A point in a cell of a square that is not too large. -/
theorem coordinate_spec (hexponent : t.layout.exponent ≤ Layout.maxExponent)
    (hn : n < t.layout.resolution) (hu : IsUnit u) :
    number? (Float32.ofNat n + u) = some (Float32.ofNat n + u) ∧
      quotient? (Float32.ofNat n + u) (Float32.ofNat t.layout.resolution) =
        some ((Float32.ofNat n + u) / Float32.ofNat t.layout.resolution) := by
  obtain ⟨q, hu, hq⟩ := hu
  have hresolution : t.layout.resolution ≤ 2 ^ 30 := Nat.pow_le_pow_right (by decide) hexponent
  obtain ⟨hcount, hle⟩ := denotes_ofNat (hn.le.trans hresolution)
  have hsum : nearest (nearest n + q) ≤ 2 ^ (31 : ℤ) := by
    refine (Representable.two_zpow (by decide)).nearest_le
      (add_nonneg hcount.nonneg hu.nonneg) ?_
    calc nearest n + q ≤ 2 ^ (30 : ℤ) + 1 := add_le_add hle hq.le
      _ ≤ 2 ^ (31 : ℤ) := by norm_num
  have hpoint := (hcount.add hu).denotes_of_le hsum
    (zpow_lt_zpow_right₀ one_lt_two (by decide))
  have hside : 0 < nearest t.layout.resolution := by
    refine lt_of_lt_of_le one_pos (Representable.one.le_nearest ?_)
    exact_mod_cast Nat.one_le_two_pow
  exact ⟨number?_of_denotes hpoint, quotient?_of_pos hpoint (denotes_ofNat hresolution).1 hside⟩

/-- The point where a path ends is a number. -/
theorem Lit.point?_eq (h : t.Lit 0 k) (hexponent : t.layout.exponent ≤ Layout.maxExponent) :
    t.point? k = some ((Float32.ofNat k.x + k.u) / Float32.ofNat t.layout.resolution,
      (Float32.ofNat k.y + k.v) / Float32.ofNat t.layout.resolution) := by
  obtain ⟨hx, hx'⟩ := coordinate_spec hexponent h.x_lt h.u
  obtain ⟨hy, hy'⟩ := coordinate_spec hexponent h.y_lt h.v
  rw [point?, hx, hy]
  show (quotient? _ _).bind _ = _
  rw [hx']
  show (quotient? _ _).bind _ = _
  rw [hy']
  rfl

/-! ## Main result -/

/-- The table of importances that are finite and not negative, with a total that is finite and not
zero: whatever two numbers below one a path starts from, it ends in a cell whose importance is not
zero, and none of its steps divides by zero or gives what is no number; neither do the density and
the point of the square that are sampled there. -/
theorem path_bright (l : Layout) (base : Array Float32) (hsize : base.size = 4 ^ l.exponent)
    (hbase : ∀ w ∈ base, 0 ≤ w ∧ w.isFinite = true) :
    ∃ t, ofImportance l base = .ok t ∧ (0 < t.total → t.total.isFinite = true →
      ∀ u v, 0 ≤ u → u < 1 → 0 ≤ v → v < 1 →
        t.path? u v = some (t.path u v) ∧
        (t.path u v).x < l.resolution ∧ (t.path u v).y < l.resolution ∧
        (∃ w, base[(t.path u v).y * l.resolution + (t.path u v).x]? = some w ∧ 0 < w) ∧
        (l.exponent ≤ Layout.maxExponent →
          0 ≤ (t.sample u v).2 ∧
          ∃ p, t.point? (t.path u v) = some p ∧ (t.sample u v).1 = toSphere p.1 p.2)) := by
  let cells : Vector Float32 (4 ^ l.exponent) := ⟨base, hsize⟩
  have hnonneg : ∀ w ∈ cells.toArray, ¬ w < 0 := by
    intro w hw
    have hle := (hbase w hw).1
    exact (not_lt_iff (isNaN_of_le hle).2 (isNaN_of_le hle).1).2 hle
  have ht : (ofCells l cells).Accumulated := accumulated_ofCells hnonneg
  refine ⟨ofCells l cells, dif_pos hsize, fun htotal hfinite u v hu hu' hv hv' => ?_⟩
  have hstart : (ofCells l cells).Lit l.exponent ⟨0, 0, u, v⟩ := by
    have hwhole : (ofCells l cells).value l.exponent 0 0 = (ofCells l cells).total :=
      (ofCells l cells).value_exponent
    refine ⟨Nat.two_pow_pos _, Nat.two_pow_pos _, ?_, ?_, isUnit_of_lt hu hu', isUnit_of_lt hv hv'⟩
    · rw [hwhole]
      exact exists_denotes_iff.2 ⟨hfinite, fun hlt => not_lt_self 0 (lt_trans htotal hlt)⟩
    · rw [hwhole]
      exact htotal
  obtain ⟨hpath, hend⟩ := ht.descendFrom (Nat.le_refl l.exponent) hstart
  change (ofCells l cells).Lit 0 ((ofCells l cells).path u v) at hend
  obtain ⟨hx, hy⟩ : ((ofCells l cells).path u v).x < l.resolution ∧
      ((ofCells l cells).path u v).y < l.resolution := (ofCells l cells).path_lt u v
  refine ⟨hpath, hx, hy, ?_, fun hexponent =>
    ⟨(usable_of_isFinite hexponent (fun w hw => (hbase w hw).1) hfinite).nonneg _ _ hx hy, _,
      hend.point?_eq hexponent, rfl⟩⟩
  have hindex : ((ofCells l cells).path u v).y * l.resolution + ((ofCells l cells).path u v).x <
      base.size := by
    rw [hsize, ← Layout.two_pow_mul_self]
    exact Layout.mul_add_lt hx hy
  have hvalue : (ofCells l cells).value 0 ((ofCells l cells).path u v).x
      ((ofCells l cells).path u v).y = base[((ofCells l cells).path u v).y * l.resolution +
        ((ofCells l cells).path u v).x] := by
    rw [value_ofCells (Nat.zero_le _) hx hy, levelValue_zero cells hx hy]
    exact entry_toArray cells (hsize ▸ hindex)
  exact ⟨_, Array.getElem?_eq_getElem hindex, hvalue ▸ hend.pos⟩

/-- A square of four cells, two of them black, and a path in it. -/
theorem path_bright_corner : ∃ t, ofImportance ⟨1⟩ #[0, 1, 0, 2] = .ok t ∧ 0 < t.total ∧
    t.total.isFinite = true ∧ t.path? 0.5 0.25 = some (t.path 0.5 0.25) ∧
      ∃ w, #[(0 : Float32), 1, 0, 2][(t.path 0.5 0.25).y * 2 + (t.path 0.5 0.25).x]? = some w ∧
        0 < w := by
  obtain ⟨t, ht, hbright⟩ := path_bright ⟨1⟩ #[0, 1, 0, 2] rfl (by decide +kernel)
  have htotal : 0 < t.total ∧ t.total.isFinite = true := by
    cases ht
    decide +kernel
  obtain ⟨hpath, -, -, hcell, -⟩ := hbright htotal.1 htotal.2 0.5 0.25 (by decide +kernel)
    (by decide +kernel) (by decide +kernel) (by decide +kernel)
  exact ⟨t, ht, htotal.1, htotal.2, hpath, hcell⟩

end Table

end Candela.Environment
