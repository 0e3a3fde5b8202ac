import Mathlib.Tactic.Linarith
import Mathlib.Tactic.NormNum
import Candela.Proofs.Geometry.Exact

/-!
# Transformed boxes

A box is transformed to the least box around the images of its corners. Under a matrix without
perspective a component of an image is a sum of products, one for each axis, and each product is
between those with the two sides. So on every axis the image of a point is between those of two
corners, whatever the signs of the matrix are (`Box.exists_corners`), and the transformed box
contains the images of all points (`Box.contains_transform`). The corners are points themselves, so
no box that does is smaller (`Box.isLeastImage_transform`). What is empty stays as it is.
-/

namespace Candela

open Extremes

/-! ## Images -/

namespace Mat4

/-- The image of a point on an axis. -/
theorem axis_project {α : Type} [Add α] [Mul α] [Div α] [OfNat α 1] (m : Mat4 α) (p : Vec3 α)
    (axis : ℕ) : (m.project p).axis axis =
      (m.x.xyz.axis axis * p.x + m.y.xyz.axis axis * p.y + m.z.xyz.axis axis * p.z +
        m.w.xyz.axis axis * 1) / (m.x.w * p.x + m.y.w * p.y + m.z.w * p.z + m.w.w * 1) := by
  rcases axis with _ | _ | _ <;> rfl

/-- The image of a point under a matrix without perspective. -/
theorem Affine.axis_project {m : Mat4 ℝ} (hm : m.Affine) (p : Vec3 ℝ) (axis : ℕ) :
    (m.project p).axis axis = m.x.xyz.axis axis * p.x + m.y.xyz.axis axis * p.y +
      m.z.xyz.axis axis * p.z + m.w.xyz.axis axis := by
  rw [Mat4.axis_project, hm.x, hm.y, hm.z, hm.w]
  norm_num

end Mat4

namespace Box

/-! ## Corners -/

section
variable {α : Type} {b : Box α} {c : Vec3 α}

theorem mem_corners_iff : c ∈ b.corners ↔ (c.x = b.lower.x ∨ c.x = b.upper.x) ∧
    (c.y = b.lower.y ∨ c.y = b.upper.y) ∧ (c.z = b.lower.z ∨ c.z = b.upper.z) := by
  obtain ⟨x, y, z⟩ := c
  simp [corners]
  tauto

/-- On every axis one of the two sides can be chosen. -/
theorem exists_corner {p q r : α → Prop} (hx : p b.lower.x ∨ p b.upper.x)
    (hy : q b.lower.y ∨ q b.upper.y) (hz : r b.lower.z ∨ r b.upper.z) :
    ∃ c ∈ b.corners, p c.x ∧ q c.y ∧ r c.z := by
  have hchoose {p : α → Prop} {lower upper : α} (h : p lower ∨ p upper) :
      ∃ x, (x = lower ∨ x = upper) ∧ p x := by
    rcases h with h | h
    · exact ⟨lower, .inl rfl, h⟩
    · exact ⟨upper, .inr rfl, h⟩
  obtain ⟨x, hx, hpx⟩ := hchoose hx
  obtain ⟨y, hy, hqy⟩ := hchoose hy
  obtain ⟨z, hz, hrz⟩ := hchoose hz
  exact ⟨⟨x, y, z⟩, mem_corners_iff.2 ⟨hx, hy, hz⟩, hpx, hqy, hrz⟩

end

/-! ## Boxes around points -/

section
variable {b : Box EReal} {ps : List (Vec3 EReal)} {axis : ℕ} {x : EReal}

theorem le_lower_foldl_iff :
    x ≤ (ps.foldl growPoint b).lower.axis axis ↔
      x ≤ b.lower.axis axis ∧ ∀ p ∈ ps, x ≤ p.axis axis := by
  induction ps generalizing b with
  | nil => simp
  | cons p ps ih =>
    have hgrow : (b.growPoint p).lower.axis axis = min (b.lower.axis axis) (p.axis axis) :=
      Vec3.axis_zipWith _ _ _ _
    rw [List.foldl_cons, ih, hgrow, le_min_iff, List.forall_mem_cons, and_assoc]

theorem upper_foldl_le_iff :
    (ps.foldl growPoint b).upper.axis axis ≤ x ↔
      b.upper.axis axis ≤ x ∧ ∀ p ∈ ps, p.axis axis ≤ x := by
  induction ps generalizing b with
  | nil => simp
  | cons p ps ih =>
    have hgrow : (b.growPoint p).upper.axis axis = max (b.upper.axis axis) (p.axis axis) :=
      Vec3.axis_zipWith _ _ _ _
    rw [List.foldl_cons, ih, hgrow, max_le_iff, List.forall_mem_cons, and_assoc]

/-- The lower sides of the least box around some points are as far up as they can be. -/
theorem le_lower_ofPoints_iff :
    x ≤ (ofPoints ps).lower.axis axis ↔ ∀ p ∈ ps, x ≤ p.axis axis := by
  have htop : (empty : Box EReal).lower.axis axis = ⊤ := by
    rcases axis with _ | _ | _ <;> rfl
  rw [ofPoints, le_lower_foldl_iff, htop, and_iff_right le_top]

/-- The upper sides are as far down. -/
theorem upper_ofPoints_le_iff :
    (ofPoints ps).upper.axis axis ≤ x ↔ ∀ p ∈ ps, p.axis axis ≤ x := by
  have hbot : (empty : Box EReal).upper.axis axis = ⊥ := by
    rcases axis with _ | _ | _ <;> rfl
  rw [ofPoints, upper_foldl_le_iff, hbot, and_iff_right bot_le]

end

/-! ## Boxes under matrices -/

/-- The empty box stays empty. -/
theorem transform_of_isEmpty {α : Type} [Extremes α] [Add α] [Mul α] [Div α] [OfNat α 1] [LT α]
    [DecidableLT α] {b : Box α} (h : b.isEmpty = true) (m : Mat4 α) : b.transform m = b := if_pos h

section Products
variable {α : Type} [CommRing α] [LinearOrder α] [IsStrictOrderedRing α] {k lo hi x : α}

/-- A product is no less than that with one of the two ends. -/
theorem exists_mul_le (h : lo ≤ x ∧ x ≤ hi) : k * lo ≤ k * x ∨ k * hi ≤ k * x := by
  rcases le_total 0 k with hk | hk
  · exact .inl (mul_le_mul_of_nonneg_left h.1 hk)
  · exact .inr (mul_le_mul_of_nonpos_left h.2 hk)

/-- It is no greater than that with one of them, either. -/
theorem exists_le_mul (h : lo ≤ x ∧ x ≤ hi) : k * x ≤ k * lo ∨ k * x ≤ k * hi := by
  rcases le_total 0 k with hk | hk
  · exact .inr (mul_le_mul_of_nonneg_left h.2 hk)
  · exact .inl (mul_le_mul_of_nonpos_left h.1 hk)

end Products

section
variable {b : Box ℝ} {m : Mat4 ℝ} {p : Vec3 ℝ}

/-- On every axis the image of a point is between those of two corners. -/
theorem exists_corners (hm : m.Affine) (hp : b.Contains p) (axis : ℕ) :
    (∃ c ∈ b.corners, (m.project c).axis axis ≤ (m.project p).axis axis) ∧
      ∃ c ∈ b.corners, (m.project p).axis axis ≤ (m.project c).axis axis := by
  simp only [hm.axis_project]
  generalize m.x.xyz.axis axis = k, m.y.xyz.axis axis = k', m.z.xyz.axis axis = k''
  constructor
  · obtain ⟨c, hc, hx, hy, hz⟩ := exists_corner (b := b) (p := (k * · ≤ k * p.x))
      (q := (k' * · ≤ k' * p.y)) (r := (k'' * · ≤ k'' * p.z)) (exists_mul_le (hp 0))
      (exists_mul_le (hp 1)) (exists_mul_le (hp 2))
    exact ⟨c, hc, by linarith⟩
  · obtain ⟨c, hc, hx, hy, hz⟩ := exists_corner (b := b) (p := (k * p.x ≤ k * ·))
      (q := (k' * p.y ≤ k' * ·)) (r := (k'' * p.z ≤ k'' * ·)) (exists_le_mul (hp 0))
      (exists_le_mul (hp 1)) (exists_le_mul (hp 2))
    exact ⟨c, hc, by linarith⟩

/-- The corners of a box that has points are points of it. -/
theorem contains_corner (hp : b.Contains p) {c : Vec3 ℝ} (hc : c ∈ b.corners) : b.Contains c := by
  have hbetween {lower upper x y : ℝ} (h : lower ≤ x ∧ x ≤ upper) (hy : y = lower ∨ y = upper) :
      lower ≤ y ∧ y ≤ upper := by
    have hsides := h.1.trans h.2
    rcases hy with rfl | rfl
    · exact ⟨le_rfl, hsides⟩
    · exact ⟨hsides, le_rfl⟩
  obtain ⟨hx, hy, hz⟩ := mem_corners_iff.1 hc
  rintro (_ | _ | _)
  · exact hbetween (hp 0) hx
  · exact hbetween (hp 1) hy
  · exact hbetween (hp 2) hz

/-- Embedding makes no box empty. -/
theorem isEmpty_exact (b : Box ℝ) : b.exact.isEmpty = b.isEmpty := by
  simp [isEmpty, exact, Vec3.exact, Vec3.map]

/-- A box that is not empty contains its least corner. -/
theorem contains_lower (hb : b.isEmpty = false) : b.Contains b.lower := by
  simp only [isEmpty, Bool.or_eq_false_iff, decide_eq_false_iff_not, not_lt] at hb
  exact fun axis => ⟨le_rfl, Vec3.forall_axis.2 ⟨hb.1.1, hb.1.2, hb.2⟩ axis⟩

/-- A box with a point in it is not empty. -/
theorem isEmpty_of_contains (hp : b.Contains p) : b.isEmpty = false := by
  have hsides (axis : ℕ) := (hp axis).1.trans (hp axis).2
  simp only [isEmpty, Bool.or_eq_false_iff, decide_eq_false_iff_not, not_lt]
  exact ⟨⟨hsides 0, hsides 1⟩, hsides 2⟩

/-- It is transformed by its corners. -/
theorem transform_exact (hb : b.isEmpty = false) (m : Mat4 ℝ) :
    b.exact.transform m.exact = ofPoints (b.corners.map fun c => (m.project c).exact) := by
  rw [transform, isEmpty_exact, hb]
  rfl

/-- The image of a box contains the images of its points. -/
theorem contains_transform (hb : b.isEmpty = false) (hm : m.Affine) (hp : b.Contains p) :
    (b.exact.transform m.exact).Contains (m.project p).exact := by
  intro axis
  obtain ⟨⟨c, hc, hlower⟩, c', hc', hupper⟩ := exists_corners hm hp axis
  rw [transform_exact hb, Vec3.exact, Vec3.axis_map]
  constructor
  · refine (le_lower_ofPoints_iff.1 le_rfl _ (List.mem_map_of_mem hc)).trans ?_
    rw [Vec3.exact, Vec3.axis_map]
    exact EReal.coe_le_coe_iff.2 hlower
  · refine le_trans ?_ (upper_ofPoints_le_iff.1 le_rfl _ (List.mem_map_of_mem hc'))
    rw [Vec3.exact, Vec3.axis_map]
    exact EReal.coe_le_coe_iff.2 hupper

/-- Every box with the images of all points reaches around the image of the box. -/
theorem transform_within (hb : b.isEmpty = false) {c : Box EReal}
    (hc : ∀ p, b.Contains p → c.Contains (m.project p).exact) (axis : ℕ) :
    c.lower.axis axis ≤ (b.exact.transform m.exact).lower.axis axis ∧
      (b.exact.transform m.exact).upper.axis axis ≤ c.upper.axis axis := by
  have hcorner {q : Vec3 ℝ} (hq : q ∈ b.corners) : c.Contains (m.project q).exact :=
    hc q (contains_corner (contains_lower hb) hq)
  rw [transform_exact hb, le_lower_ofPoints_iff, upper_ofPoints_le_iff]
  simp only [List.forall_mem_map]
  exact ⟨fun q hq => (hcorner hq axis).1, fun q hq => (hcorner hq axis).2⟩

/-- A box contains the images of all points of another one, and every box that does reaches as far
on every side. -/
structure IsLeastImage (b : Box ℝ) (m : Mat4 ℝ) (image : Box EReal) : Prop where
  contains : ∀ p, b.Contains p → image.Contains (m.project p).exact
  within : ∀ c : Box EReal, (∀ p, b.Contains p → c.Contains (m.project p).exact) → ∀ axis,
    c.lower.axis axis ≤ image.lower.axis axis ∧ image.upper.axis axis ≤ c.upper.axis axis

/-- A transformed box is as large as it must be. -/
theorem isLeastImage_transform (hb : b.isEmpty = false) (hm : m.Affine) :
    b.IsLeastImage m (b.exact.transform m.exact) :=
  ⟨fun _ => contains_transform hb hm, fun _ => transform_within hb⟩

end

end Box
end Candela
