import Candela.Proofs.Geometry.Box
import Candela.Proofs.Geometry.Transform
import Candela.Proofs.Single.Signed

/-!
# Boxes that are transformed with rounding

Rounded products and sums keep the order of what they are made of, even where they are too large. So
on every axis the rounded image of a point is between those of two corners, as long as it is a
number, and a box spans the rounded images of its points after it has been transformed
(`Box.spans_transform`). In exact numbers it contains their images (`Box.contains_transform`), so the
least box around some points does both (`Box.ofPoints_transform`).
-/

namespace Candela

open Float.Model.UnpackedFloat (Sign)

/-! ## Finite vectors -/

/-- All components are finite. -/
def Vec3.Finite (v : Vec3 Float32) : Prop := ∀ axis, (v.axis axis).isFinite = true

/-- The values of the components. -/
def Vec3.value (v : Vec3 Float32) : Vec3 ℝ := v.map fun x => (Single.value x : ℝ)

/-- All components are finite. -/
def Vec4.Finite (v : Vec4 Float32) : Prop := v.xyz.Finite ∧ v.w.isFinite = true

/-- The values of the components. -/
def Vec4.value (v : Vec4 Float32) : Vec4 ℝ := v.map fun x => (Single.value x : ℝ)

/-- All components are finite. -/
structure Mat4.Finite (m : Mat4 Float32) : Prop where
  x : m.x.Finite
  y : m.y.Finite
  z : m.z.Finite
  w : m.w.Finite

/-- The values of the components. -/
def Mat4.value (m : Mat4 Float32) : Mat4 ℝ := ⟨m.x.value, m.y.value, m.z.value, m.w.value⟩

/-- The values of the sides. -/
def Box.value (b : Box Float32) : Box ℝ := ⟨b.lower.value, b.upper.value⟩

/-! ## Products and sums -/

namespace Single

variable {s : Sign} {k lo hi x : Float32}

theorem hasValue_value (h : x.isFinite = true) : HasValue x (value x) := ⟨h, rfl⟩

/-- Multiplied by anything, one of two numbers comes before what is between them. -/
theorem before_mul (hk : k.isFinite = true) (hlo : lo.isFinite = true) (hhi : hi.isFinite = true)
    (hx : x.isFinite = true) (h : lo ≤ x ∧ x ≤ hi) :
    Before s (k * lo) (k * x) ∨ Before s (k * hi) (k * x) := by
  have hk := hasValue_value hk
  have hlo := hasValue_value hlo
  have hhi := hasValue_value hhi
  have hx := hasValue_value hx
  have hbetween := And.intro ((hlo.le_iff hx).1 h.1) ((hx.le_iff hhi).1 h.2)
  have hproduct : Before s (value k * value lo) (value k * value x) ∨
      Before s (value k * value hi) (value k * value x) := by
    cases s
    · exact Box.exists_le_mul hbetween
    · exact Box.exists_mul_le hbetween
  exact hproduct.imp ((hk.mul hlo).before (hk.mul hx)) ((hk.mul hhi).before (hk.mul hx))

/-- One, and zeros before it, add up to one. -/
theorem hasValue_one_of_zeros {k k' k'' u : Float32} (hk : HasValue k 0) (hk' : HasValue k' 0)
    (hk'' : HasValue k'' 0) (hu : HasValue u 1) {x y z : Float32} (hx : x.isFinite = true)
    (hy : y.isFinite = true) (hz : z.isFinite = true) :
    HasValue (k * x + k' * y + k'' * z + u * 1) 1 := by
  have hlimit : (1 : ℚ) < limit := denotes_one.lt_limit
  have hproduct {k x : Float32} (hk : HasValue k 0) (hx : x.isFinite = true) :
      HasValue (k * x) 0 := by
    have hmul := hk.mul (hasValue_value hx)
    rw [zero_mul] at hmul
    exact hmul.hasValue .zero denotes_zero.lt_limit
  have hsum {x y : Float32} (hx : HasValue x 0) (hy : HasValue y 0) : HasValue (x + y) 0 := by
    have hadd := hx.add hy
    rw [add_zero] at hadd
    exact hadd.hasValue .zero denotes_zero.lt_limit
  have hone : HasValue (u * 1) 1 := by
    have hmul := hu.mul denotes_one.hasValue
    rw [mul_one] at hmul
    exact hmul.hasValue .one hlimit
  have hadd := (hsum (hsum (hproduct hk hx) (hproduct hk' hy)) (hproduct hk'' hz)).add hone
  rw [zero_add] at hadd
  exact hadd.hasValue .one hlimit

end Single

namespace Mat4

variable {m : Mat4 Float32} {p : Vec3 Float32}

/-- The image of a point under a matrix without perspective is divided by one. -/
theorem Finite.hasValue_weight (hm : m.Finite) (haffine : m.value.Affine) (hp : p.Finite) :
    Single.HasValue (m.x.w * p.x + m.y.w * p.y + m.z.w * p.z + m.w.w * 1) 1 := by
  have hentry {x : Float32} {q : ℚ} (hx : x.isFinite = true) (h : (Single.value x : ℝ) = q) :
      Single.HasValue x q := ⟨hx, Rat.cast_injective h⟩
  refine Single.hasValue_one_of_zeros (hentry hm.x.2 ?_) (hentry hm.y.2 ?_) (hentry hm.z.2 ?_)
    (hentry hm.w.2 ?_) (hp 0) (hp 1) (hp 2)
  · exact haffine.x.trans Rat.cast_zero.symm
  · exact haffine.y.trans Rat.cast_zero.symm
  · exact haffine.z.trans Rat.cast_zero.symm
  · exact haffine.w.trans Rat.cast_one.symm

end Mat4

namespace Box

variable {b : Box Float32} {m : Mat4 Float32} {p : Vec3 Float32} {ps : List (Vec3 Float32)}
  {s : Sign} {axis : ℕ}

/-- Corners are finite. -/
theorem finite_of_mem_corners (hlower : b.lower.Finite) (hupper : b.upper.Finite)
    {c : Vec3 Float32} (hc : c ∈ b.corners) : c.Finite := by
  have hside {x lower upper : Float32} (hlower : lower.isFinite = true)
      (hupper : upper.isFinite = true) (hx : x = lower ∨ x = upper) : x.isFinite = true := by
    rcases hx with rfl | rfl <;> assumption
  obtain ⟨hx, hy, hz⟩ := mem_corners_iff.1 hc
  rintro (_ | _ | _)
  · exact hside (hlower 0) (hupper 0) hx
  · exact hside (hlower 1) (hupper 1) hy
  · exact hside (hlower 2) (hupper 2) hz

/-- On every axis the image of some corner comes before that of a point, unless that is beyond all
numbers. -/
theorem exists_before_project (hm : m.Finite) (haffine : m.value.Affine)
    (hlower : b.lower.Finite) (hupper : b.upper.Finite) (hp : p.Finite)
    (hbetween : ∀ axis, b.lower.axis axis ≤ p.axis axis ∧ p.axis axis ≤ b.upper.axis axis)
    (s : Sign) (axis : ℕ) :
    ∃ c ∈ b.corners, ¬ Single.Beyond s ((m.project p).axis axis).toModel.unpack →
      Single.Before s ((m.project c).axis axis) ((m.project p).axis axis) := by
  have hfinite {v : Vec4 Float32} (hv : v.Finite) : (v.xyz.axis axis).isFinite = true := hv.1 axis
  obtain ⟨c, hc, hx, hy, hz⟩ := exists_corner (b := b)
    (p := fun x => Single.Before s (m.x.xyz.axis axis * x) (m.x.xyz.axis axis * p.x))
    (q := fun y => Single.Before s (m.y.xyz.axis axis * y) (m.y.xyz.axis axis * p.y))
    (r := fun z => Single.Before s (m.z.xyz.axis axis * z) (m.z.xyz.axis axis * p.z))
    (Single.before_mul (hfinite hm.x) (hlower 0) (hupper 0) (hp 0) (hbetween 0))
    (Single.before_mul (hfinite hm.y) (hlower 1) (hupper 1) (hp 1) (hbetween 1))
    (Single.before_mul (hfinite hm.z) (hlower 2) (hupper 2) (hp 2) (hbetween 2))
  have hlast : (m.w.xyz.axis axis * 1).isNaN = false :=
    ((Single.hasValue_value (hfinite hm.w)).mul Single.denotes_one.hasValue).isNaN_eq_false
  refine ⟨c, hc, ?_⟩
  have hweight := hm.hasValue_weight haffine hp
  have hweight' := hm.hasValue_weight haffine (finite_of_mem_corners hlower hupper hc)
  rw [Mat4.axis_project, Mat4.axis_project, Single.unpack_div_one hweight,
    Single.before_congr (Single.unpack_div_one hweight' _) (Single.unpack_div_one hweight _)]
  have hsum := Single.before_add (fun _ => hx) fun _ => hy
  exact Single.before_add (Single.before_add hsum fun _ => hz) fun _ => Single.before_self hlast

/-! ## Sides -/

/-- The side that comes first on the way up or down. -/
def side (s : Sign) (b : Box Float32) : Vec3 Float32 :=
  match s with
  | .positive => b.lower
  | .negative => b.upper

/-- A side of the least box around some points is chosen from them and infinity. -/
theorem exists_side_ofPoints (ps : List (Vec3 Float32)) (s : Sign) (axis : ℕ) :
    ∃ choose last, Single.Chooses (Single.Before s) choose ∧
      last.toModel.unpack = .infinity s ∧ last.isNaN = false ∧
      ((ofPoints ps).side s).axis axis = (ps.map (·.axis axis)).foldl choose last := by
  rw [ofPoints_eq_union]
  cases s with
  | positive =>
    refine ⟨Single.min, Single.infinity, Single.chooses_min, rfl, Single.isNaN_infinity.1, ?_⟩
    exact (lower_union _ axis).trans (by rw [List.map_map]; rfl)
  | negative =>
    refine ⟨Single.max, -Single.infinity, Single.chooses_max, rfl, Single.isNaN_infinity.2, ?_⟩
    exact (upper_union _ axis).trans (by rw [List.map_map]; rfl)

/-- It is a number. -/
theorem isNaN_side_ofPoints (ps : List (Vec3 Float32)) (s : Sign) (axis : ℕ) :
    (((ofPoints ps).side s).axis axis).isNaN = false := by
  obtain ⟨choose, last, hchooses, -, hnumber, hside⟩ := exists_side_ofPoints ps s axis
  rw [hside]
  exact (hchooses.foldl_mem hnumber _).2

/-- It comes before all points that have numbers. -/
theorem before_side_ofPoints (hp : p ∈ ps) (hnumber : (p.axis axis).isNaN = false) :
    Single.Before s (((ofPoints ps).side s).axis axis) (p.axis axis) := by
  obtain ⟨choose, last, hchooses, -, hlast, hside⟩ := exists_side_ofPoints ps s axis
  rw [hside]
  exact hchooses.before_foldl hlast
    (List.mem_cons_of_mem _ (List.mem_map_of_mem (f := (·.axis axis)) hp)) hnumber

/-- The sides of the least box around finite points are finite. -/
theorem finite_side_ofPoints (hfinite : ∀ p ∈ ps, p.Finite) (hp : p ∈ ps) (s : Sign) :
    ((ofPoints ps).side s).Finite := by
  intro axis
  have hvalue := Single.hasValue_value (hfinite p hp axis)
  have hbefore := before_side_ofPoints (s := s) hp hvalue.nearest.isNaN_eq_false
  obtain ⟨choose, last, hchooses, hlast, hnumber, hside⟩ := exists_side_ofPoints ps s axis
  rw [hside] at hbefore ⊢
  rcases List.mem_cons.1 (hchooses.foldl_mem hnumber (ps.map (·.axis axis))).1 with heq | hmem
  · -- a finite point does not come after infinity
    rw [heq] at hbefore
    exact absurd (hbefore.infinity hlast) (hvalue.ne_infinity s)
  · obtain ⟨q, hq, hsame⟩ := List.mem_map.1 hmem
    rw [← hsame]
    exact hfinite q hq axis

/-- The image of a box spans the images of the points between its sides. -/
theorem spans_transform (hm : m.Finite) (haffine : m.value.Affine)
    (hlower : b.lower.Finite) (hupper : b.upper.Finite) (hp : p.Finite)
    (hbetween : ∀ axis, b.lower.axis axis ≤ p.axis axis ∧ p.axis axis ≤ b.upper.axis axis) :
    (b.transform m).Spans (m.project p) := by
  have hsides (axis : ℕ) : ¬ b.upper.axis axis < b.lower.axis axis := fun hlt =>
    Single.not_lt_self _ (Single.lt_of_le_of_lt
      (Single.le_trans (hbetween axis).1 (hbetween axis).2) hlt)
  have htransform : b.transform m = ofPoints (b.corners.map m.project) := by
    have hempty : ¬ b.isEmpty = true := by
      simp only [isEmpty, Bool.or_eq_true, decide_eq_true_eq, not_or]
      exact ⟨⟨hsides 0, hsides 1⟩, hsides 2⟩
    rw [transform, if_neg hempty]
  intro axis hnumber
  suffices hside : ∀ s, Single.Before s (((b.transform m).side s).axis axis)
      ((m.project p).axis axis) from ⟨hside .positive, hside .negative⟩
  intro s
  obtain ⟨c, hc, hbefore⟩ := exists_before_project hm haffine hlower hupper hp hbetween s axis
  rw [htransform]
  by_cases hbeyond : Single.Beyond s ((m.project p).axis axis).toModel.unpack
  · have hnumber' := Bool.eq_false_iff.1 hnumber
    have hinf := hbeyond.resolve_left fun hnan => hnumber' (Single.isNaN_iff.2 hnan)
    exact Single.before_of_infinity (isNaN_side_ofPoints _ s axis) hinf
  · have hbefore := hbefore hbeyond
    have hcorner : Single.Before s (((ofPoints (b.corners.map m.project)).side s).axis axis)
        ((m.project c).axis axis) :=
      before_side_ofPoints (List.mem_map_of_mem hc) hbefore.isNaN_eq_false.1
    exact hcorner.trans hbefore

/-- The values of a point are between those of the sides. -/
theorem contains_value (hlower : b.lower.Finite) (hupper : b.upper.Finite) (hp : p.Finite)
    (hbetween : ∀ axis, b.lower.axis axis ≤ p.axis axis ∧ p.axis axis ≤ b.upper.axis axis) :
    b.value.Contains p.value := by
  intro axis
  have hle {v w : Vec3 Float32} (hv : v.Finite) (hw : w.Finite) (h : v.axis axis ≤ w.axis axis) :
      v.value.axis axis ≤ w.value.axis axis := by
    rw [Vec3.value, Vec3.value, Vec3.axis_map, Vec3.axis_map]
    have hvalue := (Single.hasValue_value (hv axis)).le_iff (Single.hasValue_value (hw axis))
    exact Rat.cast_le.2 (hvalue.1 h)
  exact ⟨hle hlower hp (hbetween axis).1, hle hp hupper (hbetween axis).2⟩

/-- The box around finite points is transformed to one around their images, rounded or exact. -/
theorem ofPoints_transform (hfinite : ∀ p ∈ ps, p.Finite) (hp : p ∈ ps) (hm : m.Finite)
    (haffine : m.value.Affine) :
    ((ofPoints ps).transform m).Spans (m.project p) ∧
      ((ofPoints ps).value.exact.transform m.value.exact).Contains
        (m.value.project p.value).exact := by
  have hlower : (ofPoints ps).lower.Finite := finite_side_ofPoints hfinite hp .positive
  have hupper : (ofPoints ps).upper.Finite := finite_side_ofPoints hfinite hp .negative
  have hpoint := hfinite p hp
  have hbetween (axis : ℕ) := spans_ofPoints hp axis
    (Single.hasValue_value (hpoint axis)).nearest.isNaN_eq_false
  have hcontains := contains_value hlower hupper hpoint hbetween
  exact ⟨spans_transform hm haffine hlower hupper hpoint hbetween,
    contains_transform (isEmpty_of_contains hcontains) haffine hcontains⟩

end Box
end Candela
