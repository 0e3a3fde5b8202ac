import Candela.Proofs.Bvh.Nearest

/-!
# Tracing a ray and trying every triangle

The traversal of a scene is a search of the hierarchy of its instances, an instance being an item
whose visit is a search of its own. `hits` tries a ray with every triangle of every instance
instead. What the traversal answers is one of these hits, and it is within reach (`of_trace?`). None
of them that is met is missed for one farther away (`not_lt_trace?`), where a hit is met if the ray
meets all the boxes above it no farther away than the hit. So the two agree on every ray whose
nearest hit is met (`trace_eq_nearest`).

Not every hit is met. The distance of a ray to a plane in which it runs is zero times infinity,
which is no number. The slab test takes the distance to the opposite side in its place, on one of
the two sides for both ends of the slab: the ray then enters the box only at infinity.
-/

namespace Candela.Bvh

/-! ## Instances -/

section
variable {p : Packed} {shapes : List Bvh} {top h : Bvh} {r : Ray} {instances : Array Instance}
  {triangle : Nat → Nat → Option Triangle} {i : Instance} {index root first : Nat} {hit : Hit}

/-- A ray hits a triangle of an instance, which is an item of the instance's shape. -/
def Ray.Hits (r : Ray) (shapes : List Bvh) (instances : Array Instance)
    (triangle : Nat → Nat → Option Triangle) (hit : Hit) : Prop :=
  ∃ i h, instances[hit.instanceIndex]? = some i ∧ shapes[i.shape]? = some h ∧ hit.item ∈ h.items ∧
    (triangle i.shape hit.item).bind
      (·.hit? (i.toObject.applyPoint r.origin) (i.toObject.applyDirection r.direction)) =
        some hit.point

/-- An instance that is tried is searched as far as the ray still reaches. -/
theorem Packed.tryInstance_eq (hinstance : instances[index]? = some i)
    (hroot : p.roots[i.shape]? = some root) (best : Option Hit) :
    p.tryInstance r instances triangle best index =
      ((p.hitShape? root (r.toObject i (r.reach Hit.point best)) (triangle i.shape)).map fun hit =>
        (⟨index, hit.item, hit.point⟩ : Hit)).or best := by
  have hreach : r.reach Hit.point best = r.closest (best.map (·.point)) := rfl
  simp only [Packed.tryInstance, hinstance, hroot, hreach]
  cases p.hitShape? root (r.toObject i (r.closest (best.map (·.point)))) (triangle i.shape) <;> rfl

/-- What a ray reaches after an instance is what it reaches within the instance. -/
theorem Packed.reach_tryInstance (hinstance : instances[index]? = some i)
    (hroot : p.roots[i.shape]? = some root) (best : Option Hit) :
    r.reach Hit.point (p.tryInstance r instances triangle best index) =
      (r.toObject i (r.reach Hit.point best)).reach ItemHit.point
        (p.hitShape? root (r.toObject i (r.reach Hit.point best)) (triangle i.shape)) := by
  rw [Packed.tryInstance_eq hinstance hroot]
  cases p.hitShape? root (r.toObject i (r.reach Hit.point best)) (triangle i.shape) <;> rfl

/-- Trying an instance takes its hit if that is nearer. -/
theorem Packed.takes_tryInstance (hstores : p.Stores shapes) (r : Ray) (instances : Array Instance)
    (triangle : Nat → Nat → Option Triangle) :
    r.Takes Hit.point (fun _ hit => r.Hits shapes instances triangle hit)
      (p.tryInstance r instances triangle) := by
  intro best index
  cases hinstance : instances[index]? with
  | none => exact .inl (by simp only [Packed.tryInstance, hinstance])
  | some i =>
    cases hroot : p.roots[i.shape]? with
    | none => exact .inl (by simp only [Packed.tryInstance, hinstance, hroot])
    | some root =>
      rw [Packed.tryInstance_eq hinstance hroot]
      obtain ⟨h, first, hshape, hholds⟩ := hstores.of_root hroot
      cases hhit : p.hitShape? root (r.toObject i (r.reach Hit.point best)) (triangle i.shape) with
      | none => exact .inl rfl
      | some hit =>
        obtain ⟨hitem, hpoint, hlt⟩ := Packed.of_hitShape? hholds hhit
        exact .inr ⟨⟨index, hit.item, hit.point⟩, ⟨i, h, hinstance, hshape, hitem, hpoint⟩, hlt, rfl⟩

/-- No triangle of an instance that has been tried is nearer than what has been found if the ray
meets the boxes above it. -/
theorem Packed.not_lt_tryInstance (hstores : p.Stores shapes)
    (hinstance : instances[hit.instanceIndex]? = some i) (hshape : shapes[i.shape]? = some h)
    (hitem : hit.item ∈ h.items)
    (hpoint : (triangle i.shape hit.item).bind
      (·.hit? (i.toObject.applyPoint r.origin) (i.toObject.applyDirection r.direction)) =
        some hit.point)
    (hmet : ∀ b ∈ h.above hit.item, (r.toObject i r.limit).meets hit.point.distance b = true)
    (best : Option Hit) :
    ¬ hit.point.distance <
      r.reach Hit.point (p.tryInstance r instances triangle best hit.instanceIndex) := by
  obtain ⟨root, first, hroot, hholds⟩ := hstores.holds _ _ hshape
  rw [Packed.reach_tryInstance hinstance hroot]
  exact Packed.not_lt_hitShape? hholds hitem hpoint hmet

/-- Looking for the nearest hit in a scene is a search of the hierarchy of the instances. -/
theorem Packed.hit?_eq (hholds : p.Holds 0 first top) (r : Ray) (instances : Array Instance)
    (triangle : Nat → Nat → Option Triangle) :
    p.hit? r instances triangle =
      search (r.search Hit.point (p.tryInstance r instances triangle)) top none :=
  hholds.walk_eq (r.search Hit.point (p.tryInstance r instances triangle)) none

/-- What is found in a scene is hit and within reach. -/
theorem Packed.of_hit? (hholds : p.Holds 0 first top) (hstores : p.Stores shapes)
    (hhit : p.hit? r instances triangle = some hit) :
    r.Hits shapes instances triangle hit ∧ hit.point.distance < r.limit := by
  rw [Packed.hit?_eq hholds] at hhit
  obtain ⟨⟨_, -, hhits⟩, hlt⟩ :=
    (Packed.takes_tryInstance hstores r instances triangle).of_search hhit
  exact ⟨hhits, hlt⟩

/-- No triangle of a scene is nearer than what is found if the ray meets the boxes above it and above
its instance. -/
theorem Packed.not_lt_hit? (hholds : p.Holds 0 first top) (hstores : p.Stores shapes)
    (htop : hit.instanceIndex ∈ top.items) (hinstance : instances[hit.instanceIndex]? = some i)
    (hshape : shapes[i.shape]? = some h) (hitem : hit.item ∈ h.items)
    (hpoint : (triangle i.shape hit.item).bind
      (·.hit? (i.toObject.applyPoint r.origin) (i.toObject.applyDirection r.direction)) =
        some hit.point)
    (hmetTop : ∀ b ∈ top.above hit.instanceIndex, r.meets hit.point.distance b = true)
    (hmet : ∀ b ∈ h.above hit.item, (r.toObject i r.limit).meets hit.point.distance b = true) :
    ¬ hit.point.distance < r.reach Hit.point (p.hit? r instances triangle) := by
  rw [Packed.hit?_eq hholds]
  exact (Packed.takes_tryInstance hstores r instances triangle).not_lt_search
    (Packed.not_lt_tryInstance hstores hinstance hshape hitem hpoint hmet) htop hmetTop

end

/-! ## Every triangle -/

/-- The hierarchy of some triangles. -/
def ofTriangles (ts : List Triangle) : Bvh := ofBoxes (ts.map fun t => .ofPoints t.corners)

/-- The nearest hit of a ray with a scene, whose shapes are given by their triangles. -/
def trace? (shapes : List (List Triangle)) (instances : List Instance) (r : Ray) : Option Hit :=
  (pack (shapes.map ofTriangles) instances).hit? r instances.toArray fun shape item =>
    shapes[shape]?.bind (·[item]?)

/-- All hits of a ray with a scene, however far away. -/
def hits (shapes : List (List Triangle)) (instances : List Instance) (r : Ray) : List Hit :=
  instances.zipIdx.flatMap fun (i, index) =>
    (shapes[i.shape]?.getD []).zipIdx.filterMap fun (t, item) =>
      (t.hit? (i.toObject.applyPoint r.origin) (i.toObject.applyDirection r.direction)).map
        (⟨index, item, ·⟩)

/-- A ray meets the boxes above a hit no farther away than the hit. -/
def Met (shapes : List (List Triangle)) (instances : List Instance) (r : Ray) (hit : Hit) : Prop :=
  (∀ b ∈ (ofBoxes (instances.map (·.box))).above hit.instanceIndex,
    r.meets hit.point.distance b = true) ∧
  ∀ i ∈ instances[hit.instanceIndex]?, ∀ ts ∈ shapes[i.shape]?,
    ∀ b ∈ (ofTriangles ts).above hit.item,
      (r.toObject i r.limit).meets hit.point.distance b = true

instance (shapes : List (List Triangle)) (instances : List Instance) (r : Ray) (hit : Hit) :
    Decidable (Met shapes instances r hit) :=
  inferInstanceAs (Decidable (_ ∧ _))

/-- A hit is in front of the origin. -/
theorem lt_of_hit? {t : Triangle} {origin direction : Vec3 Float32} {point : Triangle.Hit}
    (h : t.hit? origin direction = some point) : 1e-6 < point.distance := by
  unfold Triangle.hit? at h
  dsimp only at h
  split at h
  · cases h
  · split at h
    · cases h
    · split at h
      · cases h
      · split at h
        · next hlt => cases h; exact hlt
        · cases h

section
variable {shapes : List (List Triangle)} {instances : List Instance} {r : Ray} {hit best : Hit}

theorem mem_hits : hit ∈ hits shapes instances r ↔
    ∃ i ts t, instances[hit.instanceIndex]? = some i ∧ shapes[i.shape]? = some ts ∧
      ts[hit.item]? = some t ∧
      t.hit? (i.toObject.applyPoint r.origin) (i.toObject.applyDirection r.direction) =
        some hit.point := by
  simp only [hits, List.mem_flatMap, List.mem_filterMap, Prod.exists, List.mem_zipIdx_iff_getElem?,
    Option.map_eq_some_iff]
  constructor
  · rintro ⟨i, index, hinstance, t, item, ht, point, hpoint, rfl⟩
    cases hshape : shapes[i.shape]? with
    | none => simp [hshape] at ht
    | some ts => exact ⟨i, ts, t, hinstance, hshape, by simpa [hshape] using ht, hpoint⟩
  · rintro ⟨i, ts, t, hinstance, hshape, ht, hpoint⟩
    exact ⟨i, _, hinstance, t, hit.item, by simpa [hshape] using ht, hit.point, hpoint, rfl⟩

/-- What a ray is found to hit is a hit, and within reach. -/
theorem of_trace? (htrace : trace? shapes instances r = some best) :
    best ∈ hits shapes instances r ∧ best.point.distance < r.limit := by
  obtain ⟨hholds, hstores⟩ := holds_pack (shapes.map ofTriangles) instances
  obtain ⟨⟨i, _, hinstance, -, -, hpoint⟩, hlt⟩ := Packed.of_hit? hholds hstores htrace
  obtain ⟨t, ht, hpoint⟩ := Option.bind_eq_some_iff.1 hpoint
  obtain ⟨ts, hshape, ht⟩ := Option.bind_eq_some_iff.1 ht
  rw [List.getElem?_toArray] at hinstance
  exact ⟨mem_hits.2 ⟨i, ts, t, hinstance, hshape, ht, hpoint⟩, hlt⟩

/-- A hit that is met is no nearer than what is found. -/
theorem not_lt_trace? (hhit : hit ∈ hits shapes instances r)
    (hmet : Met shapes instances r hit) :
    ¬ hit.point.distance < r.reach Hit.point (trace? shapes instances r) := by
  obtain ⟨i, ts, t, hinstance, hshape, ht, hpoint⟩ := mem_hits.1 hhit
  obtain ⟨hholds, hstores⟩ := holds_pack (shapes.map ofTriangles) instances
  refine Packed.not_lt_hit? hholds hstores ?_ ?_ (h := ofTriangles ts) ?_ ?_ ?_ hmet.1
    (hmet.2 i hinstance ts hshape)
  · rw [mem_items_ofBoxes, List.length_map]
    exact (List.getElem?_eq_some_iff.1 hinstance).1
  · rw [List.getElem?_toArray]
    exact hinstance
  · rw [List.getElem?_map, hshape, Option.map_some]
  · rw [ofTriangles, mem_items_ofBoxes, List.length_map]
    exact (List.getElem?_eq_some_iff.1 ht).1
  · rw [hshape, Option.bind_some, ht, Option.bind_some]
    exact hpoint

/-- If for each of its hits within reach a ray meets the boxes above it, or above one that is no
farther away, it is found to hit nothing just if there is no such hit, and otherwise to hit what is
nearest of all. -/
theorem trace_eq_nearest (shapes : List (List Triangle)) (instances : List Instance) (r : Ray)
    (hmet : ∀ hit ∈ hits shapes instances r, hit.point.distance < r.limit →
      ∃ near ∈ hits shapes instances r, near.point.distance ≤ hit.point.distance ∧
        Met shapes instances r near) :
    (trace? shapes instances r = none ↔
      ∀ hit ∈ hits shapes instances r, ¬ hit.point.distance < r.limit) ∧
    ∀ best, trace? shapes instances r = some best →
      best ∈ hits shapes instances r ∧ best.point.distance < r.limit ∧
        ∀ hit ∈ hits shapes instances r, best.point.distance ≤ hit.point.distance := by
  have hfar : ∀ hit ∈ hits shapes instances r, hit.point.distance < r.limit →
      ¬ hit.point.distance < r.reach Hit.point (trace? shapes instances r) := by
    intro hit hhit hlt hnearer
    obtain ⟨near, hnear, hle, hnearMet⟩ := hmet hit hhit hlt
    exact not_lt_trace? hnear hnearMet (Single.lt_of_le_of_lt hle hnearer)
  refine ⟨⟨fun htrace hit hhit hlt => ?_, fun hnone => ?_⟩, fun best htrace => ?_⟩
  · have hreach := hfar hit hhit hlt
    rw [htrace] at hreach
    exact hreach hlt
  · refine Option.eq_none_iff_forall_ne_some.2 fun best htrace => ?_
    obtain ⟨hbest, hlt⟩ := of_trace? htrace
    exact hnone best hbest hlt
  · obtain ⟨hbest, hlt⟩ := of_trace? htrace
    refine ⟨hbest, hlt, fun hit hhit => ?_⟩
    have hnot : ¬ hit.point.distance < best.point.distance := by
      intro hnearer
      have hreach := hfar hit hhit (Single.lt_trans hnearer hlt)
      rw [htrace] at hreach
      exact hreach hnearer
    obtain ⟨_, _, _, -, -, -, hpoint⟩ := mem_hits.1 hhit
    obtain ⟨_, _, _, -, -, -, hpointBest⟩ := mem_hits.1 hbest
    exact Single.le_of_not_lt (lt_of_hit? hpoint) (lt_of_hit? hpointBest) hnot

end

/-- A triangle with two sides on axes. -/
def cornerTriangle : Triangle := ⟨⟨0, 0, 0⟩, ⟨1, 0, 0⟩, ⟨0, 1, 0⟩⟩

/-- The triangle where it is. -/
def cornerInstance : Instance := ⟨0, .ofPoints cornerTriangle.corners, .identity⟩

/-- A ray that looks at the triangle from above, however far away it is. -/
def lookAt (x y : Float32) : Ray := ⟨⟨x, y, 1⟩, ⟨0, 0, -1⟩, Single.infinity⟩

/-- A ray through the inside of the triangle meets the box around it and is found to hit it. -/
theorem trace_corner_inside :
    (∀ hit ∈ hits [[cornerTriangle]] [cornerInstance] (lookAt 0.25 0.25),
      hit.point.distance < (lookAt 0.25 0.25).limit →
        ∃ near ∈ hits [[cornerTriangle]] [cornerInstance] (lookAt 0.25 0.25),
          near.point.distance ≤ hit.point.distance ∧
            Met [[cornerTriangle]] [cornerInstance] (lookAt 0.25 0.25) near) ∧
    trace? [[cornerTriangle]] [cornerInstance] (lookAt 0.25 0.25) ≠ none := by
  have hmet : ∀ hit ∈ hits [[cornerTriangle]] [cornerInstance] (lookAt 0.25 0.25),
      hit.point.distance < (lookAt 0.25 0.25).limit →
        ∃ near ∈ hits [[cornerTriangle]] [cornerInstance] (lookAt 0.25 0.25),
          near.point.distance ≤ hit.point.distance ∧
            Met [[cornerTriangle]] [cornerInstance] (lookAt 0.25 0.25) near := by
    decide +kernel
  have hnear : ¬ ∀ hit ∈ hits [[cornerTriangle]] [cornerInstance] (lookAt 0.25 0.25),
      ¬ hit.point.distance < (lookAt 0.25 0.25).limit := by decide +kernel
  exact ⟨hmet, fun hnone => hnear ((trace_eq_nearest _ _ _ hmet).1.1 hnone)⟩

/-- A ray that hits the side of the triangle on which its box begins is found to hit nothing. -/
theorem trace_corner_side :
    (∃ hit ∈ hits [[cornerTriangle]] [cornerInstance] (lookAt 0 0.25),
      hit.point.distance < (lookAt 0 0.25).limit) ∧
    trace? [[cornerTriangle]] [cornerInstance] (lookAt 0 0.25) = none := by
  decide +kernel

end Candela.Bvh
