import Candela.Geometry.Box
import Candela.Proofs.Single

/-!
# Boxes reach around what they are made of

A box that is grown takes the lesser of two numbers on one side and the greater on the other, and
passes over what is no number. Both are ways to choose one of two numbers (`Single.Chooses`), and
what is chosen from a list, starting with a number, comes before every number of the list
(`Single.Chooses.before_foldl`). So the least box around some boxes reaches as far as each of them
where that has numbers (`Box.covers_union`), and around more boxes it is no smaller
(`Box.inside_union`).
-/

namespace Candela

namespace Single

variable {R : Float32 → Float32 → Prop} {choose : Float32 → Float32 → Float32} {a b x : Float32}
  {l l' : List Float32}

/-! ## Choosing between numbers -/

/-- A way to choose between a number and something else, following some order. What is no number is
not chosen. -/
structure Chooses (R : Float32 → Float32 → Prop) (choose : Float32 → Float32 → Float32) : Prop where
  refl : ∀ {a}, a.isNaN = false → R a a
  trans : ∀ {a b c}, R a b → R b c → R a c
  /-- One of the two is chosen. -/
  eq_or : ∀ {a} b, a.isNaN = false → choose a b = a ∨ choose a b = b ∧ b.isNaN = false
  left : ∀ {a} b, a.isNaN = false → R (choose a b) a
  right : ∀ {a b}, a.isNaN = false → b.isNaN = false → R (choose a b) b

/-- The lesser of two is no greater than either. -/
theorem chooses_min : Chooses (· ≤ ·) Single.min where
  refl := le_self
  trans := le_trans
  eq_or {a} b ha := by
    simp only [Single.min, ha, Bool.false_eq_true, if_false]
    split
    · next hlt => exact .inr ⟨rfl, (isNaN_of_lt hlt).1⟩
    · exact .inl rfl
  left {a} b ha := by
    simp only [Single.min, ha, Bool.false_eq_true, if_false]
    split
    · next hlt => exact le_of_lt hlt
    · exact le_self ha
  right {a b} ha hb := by
    simp only [Single.min, ha, Bool.false_eq_true, if_false]
    split
    · exact le_self hb
    · next hnot => exact (not_lt_iff hb ha).1 hnot

/-- The greater of two is no less than either. -/
theorem chooses_max : Chooses (· ≥ ·) Single.max where
  refl := le_self
  trans h h' := le_trans h' h
  eq_or {a} b ha := by
    simp only [Single.max, ha, Bool.false_eq_true, if_false]
    split
    · next hlt => exact .inr ⟨rfl, (isNaN_of_lt hlt).2⟩
    · exact .inl rfl
  left {a} b ha := by
    simp only [Single.max, ha, Bool.false_eq_true, if_false]
    split
    · next hlt => exact le_of_lt hlt
    · exact le_self ha
  right {a b} ha hb := by
    simp only [Single.max, ha, Bool.false_eq_true, if_false]
    split
    · exact le_self hb
    · next hnot => exact (not_lt_iff ha hb).1 hnot

/-- What is chosen from a number and a list is one of them, and a number. -/
theorem Chooses.foldl_mem (h : Chooses R choose) (ha : a.isNaN = false) (l : List Float32) :
    l.foldl choose a ∈ a :: l ∧ (l.foldl choose a).isNaN = false := by
  induction l generalizing a with
  | nil => exact ⟨List.mem_cons_self, ha⟩
  | cons b l ih =>
    rw [List.foldl_cons]
    rcases h.eq_or b ha with hchosen | ⟨hchosen, hb⟩
    · rw [hchosen]
      obtain ⟨hmem, hnumber⟩ := ih ha
      refine ⟨?_, hnumber⟩
      simp only [List.mem_cons] at hmem ⊢
      tauto
    · rw [hchosen]
      obtain ⟨hmem, hnumber⟩ := ih hb
      exact ⟨List.mem_cons_of_mem _ hmem, hnumber⟩

/-- What is chosen from a number and a list comes before the number and every number of the list. -/
theorem Chooses.before_foldl (h : Chooses R choose) (ha : a.isNaN = false) (hx : x ∈ a :: l)
    (hnumber : x.isNaN = false) : R (l.foldl choose a) x := by
  induction l generalizing a x with
  | nil =>
    obtain rfl := List.mem_singleton.1 hx
    exact h.refl ha
  | cons b l ih =>
    have hchosen : (choose a b).isNaN = false := by
      rcases h.eq_or b ha with heq | ⟨heq, hb⟩ <;> rwa [heq]
    have hfirst : R (l.foldl choose (choose a b)) (choose a b) :=
      ih hchosen List.mem_cons_self hchosen
    rw [List.foldl_cons]
    rcases List.mem_cons.1 hx with rfl | hx
    · exact h.trans hfirst (h.left b ha)
    · rcases List.mem_cons.1 hx with rfl | hx
      · exact h.trans hfirst (h.right ha hnumber)
      · exact ih hchosen (List.mem_cons_of_mem _ hx) hnumber

/-- What is chosen from more comes before what is chosen from less. -/
theorem Chooses.foldl_before_foldl (h : Chooses R choose) (ha : a.isNaN = false) (hsub : l ⊆ l') :
    R (l'.foldl choose a) (l.foldl choose a) := by
  obtain ⟨hmem, hnumber⟩ := h.foldl_mem ha l
  exact h.before_foldl ha (List.cons_subset_cons a hsub hmem) hnumber

/-- Both ends of the order are numbers. -/
theorem isNaN_infinity : infinity.isNaN = false ∧ (-infinity).isNaN = false := by decide +kernel

end Single

/-- A vector with equal components has them on every axis. -/
theorem Vec3.axis_splat (a : Float32) (axis : Nat) : (Vec3.splat a).axis axis = a := by
  unfold Vec3.axis
  split <;> rfl

namespace Box

variable {b c : Box Float32} {bs bs' : List (Box Float32)} {p : Vec3 Float32}
  {ps : List (Vec3 Float32)} {axis : Nat}

/-! ## Boxes in boxes -/

/-- A box reaches as far as another one, on every side on which that has a number. -/
def Covers (b c : Box Float32) : Prop :=
  ∀ axis, ((c.lower.axis axis).isNaN = false → b.lower.axis axis ≤ c.lower.axis axis) ∧
    ((c.upper.axis axis).isNaN = false → c.upper.axis axis ≤ b.upper.axis axis)

/-- A box lies inside another one, on every side. -/
def Inside (c b : Box Float32) : Prop :=
  ∀ axis, b.lower.axis axis ≤ c.lower.axis axis ∧ c.upper.axis axis ≤ b.upper.axis axis

/-- A point lies between the sides of a box on every axis on which it has a number. -/
def Spans (b : Box Float32) (p : Vec3 Float32) : Prop :=
  ∀ axis, (p.axis axis).isNaN = false →
    b.lower.axis axis ≤ p.axis axis ∧ p.axis axis ≤ b.upper.axis axis

/-- The lower sides of the least box around some boxes are chosen from theirs. -/
theorem lower_union (bs : List (Box Float32)) (axis : Nat) :
    (union bs).lower.axis axis =
      (bs.map (·.lower.axis axis)).foldl Single.min Single.infinity := by
  rw [← Vec3.axis_splat Single.infinity axis, List.foldl_map]
  exact (List.foldl_hom (fun b : Box Float32 => b.lower.axis axis)
    fun _ _ => (Vec3.axis_zipWith _ _ _ _).symm).symm

/-- The upper sides of the least box around some boxes are chosen from theirs. -/
theorem upper_union (bs : List (Box Float32)) (axis : Nat) :
    (union bs).upper.axis axis =
      (bs.map (·.upper.axis axis)).foldl Single.max (-Single.infinity) := by
  rw [← Vec3.axis_splat (-Single.infinity) axis, List.foldl_map]
  exact (List.foldl_hom (fun b : Box Float32 => b.upper.axis axis)
    fun _ _ => (Vec3.axis_zipWith _ _ _ _).symm).symm

/-- The least box around some boxes reaches as far as each of them. -/
theorem covers_union (hb : b ∈ bs) : (union bs).Covers b := by
  intro axis
  rw [lower_union, upper_union]
  constructor
  · intro hnumber
    have hmem := List.mem_map_of_mem (f := (·.lower.axis axis)) hb
    exact Single.chooses_min.before_foldl Single.isNaN_infinity.1 (List.mem_cons_of_mem _ hmem)
      hnumber
  · intro hnumber
    have hmem := List.mem_map_of_mem (f := (·.upper.axis axis)) hb
    exact Single.chooses_max.before_foldl Single.isNaN_infinity.2 (List.mem_cons_of_mem _ hmem)
      hnumber

/-- The least box around some boxes lies inside the least box around more boxes. -/
theorem inside_union (hsub : bs ⊆ bs') : (union bs).Inside (union bs') := by
  intro axis
  rw [lower_union, upper_union, lower_union, upper_union]
  exact ⟨Single.chooses_min.foldl_before_foldl Single.isNaN_infinity.1 (List.map_subset _ hsub),
    Single.chooses_max.foldl_before_foldl Single.isNaN_infinity.2 (List.map_subset _ hsub)⟩

/-- A point is a box without size. -/
theorem ofPoints_eq_union (ps : List (Vec3 Float32)) :
    ofPoints ps = union (ps.map fun p => ⟨p, p⟩) := by
  rw [union, List.foldl_map]
  rfl

/-- The least box around some points spans each of them. -/
theorem spans_ofPoints (hp : p ∈ ps) : (ofPoints ps).Spans p := by
  intro axis hnumber
  rw [ofPoints_eq_union]
  have hcovers := covers_union (List.mem_map_of_mem (f := fun p => (⟨p, p⟩ : Box Float32)) hp) axis
  exact ⟨hcovers.1 hnumber, hcovers.2 hnumber⟩

/-- What covers a box spans the points that the box spans. -/
theorem Covers.spans (h : b.Covers c) (hc : c.Spans p) : b.Spans p := by
  intro axis hnumber
  obtain ⟨hlower, hupper⟩ := hc axis hnumber
  exact ⟨Single.le_trans ((h axis).1 (Single.isNaN_of_le hlower).1) hlower,
    Single.le_trans hupper ((h axis).2 (Single.isNaN_of_le hupper).2)⟩

end Box

end Candela
