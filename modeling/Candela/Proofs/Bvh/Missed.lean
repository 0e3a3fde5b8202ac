import Candela.Proofs.Bvh.Below
import Candela.Proofs.Bvh.Trace

/-!
# What a traversal passes over

A traversal comes to an end and never looks for anything that is not there: the strict one has an
answer, and it is the same (`Packed.strictHit?_eq`). What it answers is a hit within reach. If
another triangle is hit nearer, it has been passed over, and that is only done below a box that the
ray does not meet as far as it reaches in the end (`pack_traversal`). The box may have been looked
at when the ray still reached farther; it was left out even then, since a ray that reaches less
meets no more boxes.
-/

namespace Candela.Bvh

variable {p : Packed} {shapes : List Bvh} {top h : Bvh} {r : Ray} {instances : Array Instance}
  {triangle : Nat → Nat → Option Triangle} {i : Instance} {index root first : Nat}

/-! ## Strict traversals -/

/-- A strict search of a shape that is there comes to an end. -/
theorem Packed.strictHitShape?_eq (hholds : p.Holds root first h) (r : Ray)
    (triangle : Nat → Option Triangle) :
    p.strictHitShape? root r triangle = some (p.hitShape? root r triangle) := by
  rw [Packed.hitShape?_eq hholds]
  refine hholds.strictWalk_eq rfl (fun place item hitem _ best => ?_) none
  simp only [Packed.strictShapeRule, hitem]
  rfl

/-- An instance that is there, and whose shape is there, can be tried strictly. -/
theorem Packed.strictTryInstance?_eq (hstores : p.Stores shapes)
    (hinstance : instances[index]? = some i) (hshape : i.shape < shapes.length)
    (best : Option Hit) :
    p.strictTryInstance? r instances triangle best index =
      some (p.tryInstance r instances triangle best index) := by
  obtain ⟨root, first, hroot, hholds⟩ := hstores.holds _ _ (List.getElem?_eq_getElem hshape)
  have hfound := Packed.strictHitShape?_eq hholds (r.toObject i (r.reach Hit.point best))
    (triangle i.shape)
  have hreach : r.reach Hit.point best = r.closest (best.map (·.point)) := rfl
  rw [hreach] at hfound
  rw [Packed.tryInstance_eq hinstance hroot, hreach]
  simp only [Packed.strictTryInstance?, hinstance, hroot, hfound, Option.bind_eq_bind,
    Option.bind_some]
  rfl

/-- A strict traversal of a scene whose instances and shapes are there comes to an end. -/
theorem Packed.strictHit?_eq (hholds : p.Holds 0 first top) (hstores : p.Stores shapes)
    (hinstances : ∀ k ∈ top.items, ∃ i, instances[k]? = some i ∧ i.shape < shapes.length) (r : Ray)
    (triangle : Nat → Nat → Option Triangle) :
    p.strictHit? r instances triangle = some (p.hit? r instances triangle) := by
  rw [Packed.hit?_eq hholds]
  refine hholds.strictWalk_eq rfl (fun place k hk hmem best => ?_) none
  obtain ⟨i, hinstance, hshape⟩ := hinstances k hmem
  simp only [Packed.strictSceneRule, hk]
  exact Packed.strictTryInstance?_eq hstores hinstance hshape best

/-! ## What is left out -/

/-- There is a node on the way to another one whose box a ray does not meet within a distance. -/
def Ray.MissesOnWay (r : Ray) (far : Float32) (nodes : Array Node) (root target : Nat) : Prop :=
  ∃ node, OnWay nodes root target node ∧ r.meets far node.box = false

/-- A ray that misses no node on a way meets all boxes on it. -/
theorem Packed.Holds.exists_met (hholds : p.Holds root first h) {leaf k : Nat} {far : Float32}
    (hleaf : p.LeafOf root leaf k) (hmisses : ¬ r.MissesOnWay far p.nodes root leaf) :
    ∃ bs, h.PathTo k bs ∧ ∀ b ∈ bs, r.meets far b = true := by
  obtain ⟨bs, hpath, hbs⟩ := hholds.exists_pathTo hleaf
  refine ⟨bs, hpath, fun b hb => ?_⟩
  obtain ⟨node, hway, rfl⟩ := hbs b hb
  by_contra hout
  exact hmisses ⟨node, hway, Bool.eq_false_iff.2 hout⟩

/-- Which boxes a ray meets within a distance has nothing to do with how far it reaches. -/
theorem Ray.meets_toObject (r : Ray) (i : Instance) (reach reach' far : Float32) (b : Box Float32) :
    (r.toObject i reach).meets far b = (r.toObject i reach').meets far b := rfl

/-- A triangle that is hit nearer than what a ray is found to hit is below a box that the ray does
not meet within that distance: one on the way to its instance, or one on the way to the triangle in
the instance's shape. -/
theorem Packed.missesOnWay_of_lt (hholds : p.Holds 0 first top) (hstores : p.Stores shapes)
    {k : Nat} (hinstance : instances[k]? = some i) (hshape : shapes[i.shape]? = some h)
    (hroot : p.roots[i.shape]? = some root) {item : Nat} {point : Triangle.Hit}
    (hpoint : (triangle i.shape item).bind
      (·.hit? (i.toObject.applyPoint r.origin) (i.toObject.applyDirection r.direction)) = some point)
    (hlt : point.distance < r.reach Hit.point (p.hit? r instances triangle)) {top' leaf : Nat}
    (htop : p.LeafOf 0 top' k) (hleaf : p.LeafOf root leaf item) :
    r.MissesOnWay (r.reach Hit.point (p.hit? r instances triangle)) p.nodes 0 top' ∨
      (r.toObject i r.limit).MissesOnWay (r.reach Hit.point (p.hit? r instances triangle)) p.nodes
        root leaf := by
  by_contra hmet
  obtain ⟨hmetTop, hmetShape⟩ := not_or.1 hmet
  generalize hfar : r.reach Hit.point (p.hit? r instances triangle) = far at hlt hmetTop hmetShape
  rw [Packed.hit?_eq hholds] at hfar
  -- the instance has been tried
  obtain ⟨bs, hpath, hbs⟩ := hholds.exists_met htop hmetTop
  obtain ⟨best, hbest⟩ := (Packed.takes_tryInstance hstores r instances triangle).exists_visit hpath
    hbs (.inl hfar.symm)
  -- and so has the triangle, when the instance was tried
  obtain ⟨h', first', hshape', hheld⟩ := hstores.of_root hroot
  cases hshape.symm.trans hshape'
  obtain ⟨bs', hpath', hbs'⟩ := hheld.exists_met hleaf hmetShape
  rw [Packed.reach_tryInstance hinstance hroot, Packed.hitShape?_eq hheld] at hbest
  obtain ⟨best', hbest'⟩ := ((r.toObject i (r.reach Hit.point best)).takes_tryItem
    (triangle i.shape)).exists_visit hpath'
      (fun b hb => (r.meets_toObject i _ r.limit far b).trans (hbs' b hb)) hbest
  exact Ray.not_lt_tryItem (r := r.toObject i _) hpoint best' (hbest'.lt hlt)

/-- What the traversal of a packed scene comes to. -/
structure Packed.Traversal (p : Packed) (shapes : List Bvh) (instances : List Instance) (r : Ray)
    (triangle : Nat → Nat → Option Triangle) (found : Option Hit) : Prop where
  /-- It comes to an end, and everything that it looks for is there. -/
  ends : p.strictHit? r instances.toArray triangle = some found
  /-- What is found is a hit with an item of an instance's shape, and within reach. -/
  hits : ∀ hit, found = some hit →
    r.Hits shapes instances.toArray triangle hit ∧ hit.point.distance < r.limit
  /-- Every instance stands in a leaf of the top level. -/
  instance_leaf : ∀ k < instances.length, ∃ leaf, p.LeafOf 0 leaf k
  /-- Every item of an instance's shape stands in a leaf below the root of the shape. -/
  item_leaf : ∀ i ∈ instances, ∃ h root, shapes[i.shape]? = some h ∧ p.roots[i.shape]? = some root ∧
    ∀ item ∈ h.items, ∃ leaf, p.LeafOf root leaf item
  /-- A hit that is within reach, and nearer than what is found, is below a box that the ray does
  not meet as far as it reaches in the end: in the world on the way to the instance, or in the space
  of the instance on the way to the item. -/
  missed : ∀ k i root item point, instances[k]? = some i → p.roots[i.shape]? = some root →
    (triangle i.shape item).bind
      (·.hit? (i.toObject.applyPoint r.origin) (i.toObject.applyDirection r.direction)) =
        some point →
    point.distance < r.reach Hit.point found →
    ∀ top leaf, p.LeafOf 0 top k → p.LeafOf root leaf item →
      r.MissesOnWay (r.reach Hit.point found) p.nodes 0 top ∨
        (r.toObject i r.limit).MissesOnWay (r.reach Hit.point found) p.nodes root leaf

/-- The traversal of a packed scene whose instances have shapes comes to an end with a hit within
reach, and passes over a nearer one only where a box on the way to it is not met. This is so for all
rays, however far they reach, and whatever the triangles are. -/
theorem pack_traversal (shapes : List Bvh) (instances : List Instance)
    (hshapes : ∀ i ∈ instances, i.shape < shapes.length) (r : Ray)
    (triangle : Nat → Nat → Option Triangle) :
    (pack shapes instances).Traversal shapes instances r triangle
      ((pack shapes instances).hit? r instances.toArray triangle) := by
  obtain ⟨hholds, hstores⟩ := holds_pack shapes instances
  have hitems : ∀ k, k ∈ (ofBoxes (instances.map (·.box))).items ↔ k < instances.length := by
    intro k
    rw [mem_items_ofBoxes, List.length_map]
  refine
    { ends := ?_
      hits := fun hit hhit => Packed.of_hit? hholds hstores hhit
      instance_leaf := fun k hk => hholds.exists_leafOf ((hitems k).2 hk)
      item_leaf := fun i hi => ?_
      missed := ?_ }
  · refine Packed.strictHit?_eq hholds hstores (fun k hk => ?_) r triangle
    have hlt : k < instances.length := (hitems k).1 hk
    exact ⟨instances[k], by simp [hlt], hshapes _ (List.getElem_mem hlt)⟩
  · have hshape := List.getElem?_eq_getElem (hshapes i hi)
    obtain ⟨root, first, hroot, hheld⟩ := hstores.holds _ _ hshape
    exact ⟨_, root, hshape, hroot, fun item hitem => hheld.exists_leafOf hitem⟩
  · intro k i root item point hinstance hroot hpoint hlt top leaf htop hleaf
    obtain ⟨h, _, hshape, -⟩ := hstores.of_root hroot
    rw [← List.getElem?_toArray] at hinstance
    exact Packed.missesOnWay_of_lt hholds hstores hinstance hshape hroot hpoint hlt htop hleaf

/-- A ray that hits the side of the triangle on which its box begins is found to hit nothing; the
box is in the way. -/
theorem traversal_corner_side :
    (∀ i ∈ [cornerInstance], i.shape < [ofTriangles [cornerTriangle]].length) ∧
      (pack [ofTriangles [cornerTriangle]] [cornerInstance]).Traversal
        [ofTriangles [cornerTriangle]] [cornerInstance] (lookAt 0 0.25)
        (fun _ _ => some cornerTriangle) none := by
  have hshapes : ∀ i ∈ [cornerInstance], i.shape < [ofTriangles [cornerTriangle]].length := by
    decide +kernel
  have hfound : (pack [ofTriangles [cornerTriangle]] [cornerInstance]).hit? (lookAt 0 0.25)
      [cornerInstance].toArray (fun _ _ => some cornerTriangle) = none := by
    decide +kernel
  exact ⟨hshapes,
    hfound ▸ pack_traversal _ _ hshapes (lookAt 0 0.25) fun _ _ => some cornerTriangle⟩

end Candela.Bvh
