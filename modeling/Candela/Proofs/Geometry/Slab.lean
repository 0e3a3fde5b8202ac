import Mathlib.Tactic.Linarith
import Mathlib.Tactic.NormNum
import Mathlib.Tactic.Tauto
import Candela.Proofs.Geometry.Exact

/-!
# The slab test is exact

Over real numbers a line that is parallel to no side of a box is between two opposite sides from the
lesser of the two places where it meets them up to the greater one, whichever way it goes
(`Box.between_iff`). It is in the box where it is between all opposite sides
(`Box.contains_iff`), so a ray is in a box from where it has entered all slabs to where it leaves
the first one, if that comes later (`Box.mem_crossing_iff`). This is what the slab test compares:
its answer is the first place where the ray is in the box (`Box.exactEntry?_eq_some_iff`).
-/

namespace Candela

namespace Box

variable {b b' : Box ℝ} {origin direction : Vec3 ℝ} {limit : EReal} {t : ℝ}

/-! ## Slabs -/

/-- A line is between two planes as long as it is between the places where it meets them. -/
theorem between_iff {lo hi o d t : ℝ} (hd : d ≠ 0) (h : lo ≤ hi) :
    (lo ≤ o + d * t ∧ o + d * t ≤ hi) ↔
      min ((lo - o) * (1 / d)) ((hi - o) * (1 / d)) ≤ t ∧
        t ≤ max ((lo - o) * (1 / d)) ((hi - o) * (1 / d)) := by
  have hsub : lo - o ≤ hi - o := sub_le_sub_right h o
  rw [mul_one_div, mul_one_div]
  rcases hd.lt_or_gt with hneg | hpos
  · rw [min_eq_right (div_le_div_of_nonpos_of_le hneg.le hsub),
      max_eq_left (div_le_div_of_nonpos_of_le hneg.le hsub), div_le_iff_of_neg hneg,
      le_div_iff_of_neg hneg, mul_comm t d]
    constructor <;> rintro ⟨h₁, h₂⟩ <;> constructor <;> linarith
  · rw [min_eq_left (div_le_div_of_nonneg_right hsub hpos.le),
      max_eq_right (div_le_div_of_nonneg_right hsub hpos.le), div_le_iff₀ hpos, le_div_iff₀ hpos,
      mul_comm t d]
    constructor <;> rintro ⟨h₁, h₂⟩ <;> constructor <;> linarith

/-- Where a ray, not farther away than `limit`, is in a box. -/
def Crossing (b : Box ℝ) (origin direction : Vec3 ℝ) (limit : EReal) : Set ℝ :=
  {t | 0 ≤ t ∧ (t : EReal) ≤ limit ∧ b.Contains (origin + direction.scale t)}

/-- Where a line meets the planes through two opposite corners of a box. -/
noncomputable def meets (corner origin direction : Vec3 ℝ) : Vec3 ℝ :=
  (corner - origin) * direction.map (1 / ·)

/-- Where a line enters the slab between opposite sides of a box. -/
noncomputable def enter (b : Box ℝ) (origin direction : Vec3 ℝ) : Vec3 ℝ :=
  (meets b.lower origin direction).zipWith min (meets b.upper origin direction)

/-- Where it leaves the slab. -/
noncomputable def leave (b : Box ℝ) (origin direction : Vec3 ℝ) : Vec3 ℝ :=
  (meets b.lower origin direction).zipWith max (meets b.upper origin direction)

/-- Where a ray has entered all slabs. -/
noncomputable def near (b : Box ℝ) (origin direction : Vec3 ℝ) : ℝ :=
  let e := b.enter origin direction
  max (max e.x (max e.y e.z)) 0

/-- Where it leaves the first slab. -/
noncomputable def far (b : Box ℝ) (origin direction : Vec3 ℝ) : ℝ :=
  let l := b.leave origin direction
  min l.x (min l.y l.z)

/-! ## The test -/

/-- The slab test for a box and a ray of real numbers. -/
noncomputable def exactEntry? (b : Box ℝ) (origin direction : Vec3 ℝ) (limit : EReal) :
    Option EReal :=
  b.exact.entry? origin.exact (direction.exact.map (1 / ·)) limit

/-- The slab test compares the two, and the limit. -/
theorem exactEntry?_eq (b : Box ℝ) (origin direction : Vec3 ℝ) (limit : EReal) :
    b.exactEntry? origin direction limit =
      if (b.near origin direction : EReal) ≤ min (b.far origin direction : EReal) limit then
        some (b.near origin direction : EReal)
      else none := by
  have hmeets (corner : Vec3 ℝ) : (corner.exact - origin.exact) * direction.exact.map (1 / ·) =
      (meets corner origin direction).exact := by
    have hplane (c o d : ℝ) : ((c : EReal) - o) * (1 / (d : EReal)) = ((c - o) * (1 / d) : ℝ) := by
      push_cast [EReal.coe_div]
      rfl
    exact congr (congr (congrArg Vec3.mk (hplane _ _ _)) (hplane _ _ _)) (hplane _ _ _)
  have hlesser : (fun a b : EReal => if a < b then a else b) = min := by
    funext a b
    exact (min_def_lt a b).symm
  have hlarger : (fun a b : EReal => if b < a then a else b) = max := by
    funext a b
    rw [max_comm]
    exact (max_def_lt b a).symm
  have hmin (a b : ℝ) : ((min a b : ℝ) : EReal) = min (a : EReal) b :=
    EReal.coe_strictMono.monotone.map_min
  have hmax (a b : ℝ) : ((max a b : ℝ) : EReal) = max (a : EReal) b :=
    EReal.coe_strictMono.monotone.map_max
  have hlower : b.exact.lower = b.lower.exact := rfl
  have hupper : b.exact.upper = b.upper.exact := rfl
  rw [ exactEntry?, entry?, hlower, hupper, hmeets, hmeets, hlesser, hlarger]
  simp only [near, far, enter, leave, Vec3.zipWith, hmin, hmax]
  rfl

section
variable (hb : ∀ axis, b.lower.axis axis ≤ b.upper.axis axis)
  (hd : ∀ axis, direction.axis axis ≠ 0)
include hb hd

/-- A point of a line is in a box if the line has entered all slabs there, and has not left any. -/
theorem contains_iff :
    b.Contains (origin + direction.scale t) ↔
      ∀ axis, (b.enter origin direction).axis axis ≤ t ∧
        t ≤ (b.leave origin direction).axis axis := by
  refine forall_congr' fun axis => ?_
  have hpoint : (origin + direction.scale t).axis axis =
      origin.axis axis + direction.axis axis * t := by
    show ((origin.zipWith (· + ·) (direction.map (· * t)) : Vec3 ℝ)).axis axis = _
    rw [Vec3.axis_zipWith, Vec3.axis_map]
  have hmeets (corner : Vec3 ℝ) : (meets corner origin direction).axis axis =
      (corner.axis axis - origin.axis axis) * (1 / direction.axis axis) := by
    show (((corner.zipWith (· - ·) origin).zipWith (· * ·) (direction.map (1 / ·)) :
      Vec3 ℝ)).axis axis = _
    rw [Vec3.axis_zipWith, Vec3.axis_zipWith, Vec3.axis_map]
  rw [enter, leave, Vec3.axis_zipWith, Vec3.axis_zipWith, hmeets, hmeets, hpoint]
  exact between_iff (hd axis) (hb axis)

/-- Where a ray is in a box. -/
theorem mem_crossing_iff :
    t ∈ b.Crossing origin direction limit ↔
      b.near origin direction ≤ t ∧ t ≤ b.far origin direction ∧ (t : EReal) ≤ limit := by
  rw [Crossing, Set.mem_ofPred_eq, contains_iff hb hd,
    Vec3.forall_axis (p := fun e l : ℝ => e ≤ t ∧ t ≤ l), near, far]
  simp only [max_le_iff, le_min_iff]
  tauto

/-- If a ray comes into a box at all, it does where it has entered all slabs. -/
theorem isLeast_near (h : (b.Crossing origin direction limit).Nonempty) :
    IsLeast (b.Crossing origin direction limit) (b.near origin direction) := by
  obtain ⟨t, ht⟩ := h
  obtain ⟨hnear, hfar, hlimit⟩ := (mem_crossing_iff hb hd).1 ht
  refine ⟨(mem_crossing_iff hb hd).2 ⟨le_rfl, hnear.trans hfar, ?_⟩, fun t' ht' => ?_⟩
  · exact (EReal.coe_le_coe hnear).trans hlimit
  · exact ((mem_crossing_iff hb hd).1 ht').1

/-- What the slab test compares tells whether a ray comes into a box. -/
theorem nonempty_crossing_iff :
    (b.Crossing origin direction limit).Nonempty ↔
      (b.near origin direction : EReal) ≤ min (b.far origin direction : EReal) limit := by
  rw [le_min_iff, EReal.coe_le_coe_iff]
  constructor
  · intro h
    obtain ⟨-, hfar, hlimit⟩ := (mem_crossing_iff hb hd).1 (isLeast_near hb hd h).1
    exact ⟨hfar, hlimit⟩
  · rintro ⟨hfar, hlimit⟩
    exact ⟨_, (mem_crossing_iff hb hd).2 ⟨le_rfl, hfar, hlimit⟩⟩

/-- The slab test finds the first place where a ray is in a box. -/
theorem exactEntry?_eq_some_iff {x : EReal} :
    b.exactEntry? origin direction limit = some x ↔
      ∃ t : ℝ, x = t ∧ IsLeast (b.Crossing origin direction limit) t := by
  rw [exactEntry?_eq]
  split
  · next hle =>
    have hleast := isLeast_near hb hd ((nonempty_crossing_iff hb hd).2 hle)
    constructor
    · intro h
      exact ⟨_, (Option.some.inj h).symm, hleast⟩
    · rintro ⟨t, rfl, ht⟩
      rw [ht.unique hleast]
  · next hnot =>
    refine iff_of_false nofun ?_
    rintro ⟨t, -, ht⟩
    exact hnot ((nonempty_crossing_iff hb hd).1 ht.nonempty)

end

/-- A larger box and a larger limit leave all places where a ray is in the box. -/
theorem crossing_mono {limit' : EReal} (hinside : ∀ p, b.Contains p → b'.Contains p)
    (hlimit : limit ≤ limit') :
    b.Crossing origin direction limit ⊆ b'.Crossing origin direction limit' := by
  rintro t ⟨hnonneg, hle, hmem⟩
  exact ⟨hnonneg, hle.trans hlimit, hinside _ hmem⟩

/-- Only a box with its corners the right way round has points. -/
theorem Contains.lower_le {p : Vec3 ℝ} (h : b.Contains p) (axis : ℕ) :
    b.lower.axis axis ≤ b.upper.axis axis :=
  (h axis).1.trans (h axis).2

/-! ## Main result -/

/-- The slab test is exact: it has an answer if a ray that is parallel to no side comes into a box
before the limit, and the answer is the first place where it does. In a larger box, or up to a larger
limit, nothing that has been found is lost. -/
theorem exactEntry?_spec (b : Box ℝ) (origin direction : Vec3 ℝ) (limit : EReal)
    (hb : ∀ axis, b.lower.axis axis ≤ b.upper.axis axis)
    (hd : ∀ axis, direction.axis axis ≠ 0) :
    ((∃ x, b.exactEntry? origin direction limit = some x) ↔
      ∃ t : ℝ, 0 ≤ t ∧ (t : EReal) ≤ limit ∧ b.Contains (origin + direction.scale t)) ∧
    (∀ x, b.exactEntry? origin direction limit = some x → ∃ t : ℝ, x = t ∧
      IsLeast {t : ℝ | 0 ≤ t ∧ (t : EReal) ≤ limit ∧ b.Contains (origin + direction.scale t)} t) ∧
    (∀ (b' : Box ℝ) (limit' : EReal), (∀ p, b.Contains p → b'.Contains p) → limit ≤ limit' →
      ∀ x, b.exactEntry? origin direction limit = some x →
        ∃ x' ≤ x, b'.exactEntry? origin direction limit' = some x') := by
  refine ⟨⟨?_, ?_⟩, fun x hx => (exactEntry?_eq_some_iff hb hd).1 hx, ?_⟩
  · rintro ⟨x, hx⟩
    obtain ⟨t, -, ht⟩ := (exactEntry?_eq_some_iff hb hd).1 hx
    exact ⟨t, ht.1⟩
  · intro h
    exact ⟨_, (exactEntry?_eq_some_iff hb hd).2 ⟨_, rfl, isLeast_near hb hd h⟩⟩
  · intro b' limit' hinside hlimit x hx
    obtain ⟨t, rfl, ht⟩ := (exactEntry?_eq_some_iff hb hd).1 hx
    have ht' := crossing_mono hinside hlimit ht.1
    have hb' : ∀ axis, b'.lower.axis axis ≤ b'.upper.axis axis := ht'.2.2.lower_le
    have hleast := isLeast_near hb' hd ⟨t, ht'⟩
    exact ⟨_, EReal.coe_le_coe (hleast.2 ht'),
      (exactEntry?_eq_some_iff hb' hd).2 ⟨_, rfl, hleast⟩⟩

/-- A ray that comes to a cube from the left, and goes up in it. -/
theorem exactEntry?_cube :
    (∀ axis, (Vec3.splat (-1 : ℝ)).axis axis ≤ (Vec3.splat (1 : ℝ)).axis axis) ∧
    (∀ axis, (⟨1, 1 / 8, -1 / 8⟩ : Vec3 ℝ).axis axis ≠ 0) ∧
    exactEntry? ⟨.splat (-1), .splat 1⟩ ⟨-5, 0, 0⟩ ⟨1, 1 / 8, -1 / 8⟩ (100 : ℝ) =
      some (4 : ℝ) := by
  have hb : ∀ axis, (Vec3.splat (-1 : ℝ)).axis axis ≤ (Vec3.splat (1 : ℝ)).axis axis := by
    rintro (_ | _ | _) <;> norm_num [Vec3.axis, Vec3.splat]
  have hd : ∀ axis, (⟨1, 1 / 8, -1 / 8⟩ : Vec3 ℝ).axis axis ≠ 0 := by
    rintro (_ | _ | _) <;> norm_num [Vec3.axis]
  have hpoint (t : ℝ) : (⟨-5, 0, 0⟩ : Vec3 ℝ) + (⟨1, 1 / 8, -1 / 8⟩ : Vec3 ℝ).scale t =
      ⟨-5 + 1 * t, 0 + 1 / 8 * t, 0 + -1 / 8 * t⟩ := rfl
  have hmem : (0 : ℝ) ≤ 4 ∧ ((4 : ℝ) : EReal) ≤ (100 : ℝ) ∧
      (⟨.splat (-1), .splat 1⟩ : Box ℝ).Contains
        ((⟨-5, 0, 0⟩ : Vec3 ℝ) + (⟨1, 1 / 8, -1 / 8⟩ : Vec3 ℝ).scale 4) := by
    refine ⟨by norm_num, EReal.coe_le_coe (by norm_num), ?_⟩
    rw [hpoint]
    rintro (_ | _ | _) <;> norm_num [Vec3.axis, Vec3.splat]
  obtain ⟨hfound, hfirst, -⟩ :=
    exactEntry?_spec ⟨.splat (-1), .splat 1⟩ ⟨-5, 0, 0⟩ ⟨1, 1 / 8, -1 / 8⟩ (100 : ℝ) hb hd
  obtain ⟨x, hx⟩ := hfound.2 ⟨4, hmem⟩
  obtain ⟨t, rfl, ht⟩ := hfirst x hx
  have hleft : -1 ≤ -5 + 1 * t := (ht.1.2.2 0).1
  have hfour : t = 4 := le_antisymm (ht.2 hmem) (by linarith)
  rw [hfour] at hx
  exact ⟨hb, hd, hx⟩

end Box

end Candela
