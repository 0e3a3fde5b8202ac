import Candela.Proofs.Geometry.Rounded
import Candela.Proofs.Scene.Faces

/-!
# The boxes of instances reach around their shapes

The box of a loaded shape is the least one around the vertices of its mesh, and the triangles of the
mesh have no other corners. So the box that an instance gets, which is that of its shape under the
entity's transform, reaches around the images of all triangles (`Assembly.Surrounds`). This asks for
finite vertices and a finite transform without perspective. A box with an infinite side has corners
without images, and those would be passed over.
-/

namespace Candela.Scene

variable {scene : Scene} {source : Mesh.Source} {a : Assembly} {k : Nat} {e : Entity}

/-! ## Triangles of a mesh -/

/-- A triangle that names vertices has them as its corners. -/
theorem exists_corners_mem {vertices : Array Mesh.Vertex} {f : Mesh.Face}
    (h : ∀ i ∈ f.corners, i.toNat < vertices.size) : ∃ t, trianglePoints? vertices f = some t ∧
      ∀ corner ∈ t.corners, corner ∈ vertices.toList.map (·.position) := by
  have hvertex {i : UInt32} (hi : i ∈ f.corners) : ∃ v, vertices[i.toNat]? = some v ∧
      v.position ∈ vertices.toList.map (·.position) := by
    have hlt := h i hi
    exact ⟨vertices[i.toNat], Array.getElem?_eq_getElem hlt,
      List.mem_map_of_mem (Array.getElem_mem_toList hlt)⟩
  obtain ⟨a, ha, ha'⟩ := hvertex (i := f.a) (by simp [Mesh.Face.corners])
  obtain ⟨b, hb, hb'⟩ := hvertex (i := f.b) (by simp [Mesh.Face.corners])
  obtain ⟨c, hc, hc'⟩ := hvertex (i := f.c) (by simp [Mesh.Face.corners])
  refine ⟨⟨a.position, b.position, c.position⟩, by simp [trianglePoints?, ha, hb, hc], ?_⟩
  simp only [Triangle.corners, List.mem_cons, List.not_mem_nil, or_false]
  rintro corner (rfl | rfl | rfl)
  · exact ha'
  · exact hb'
  · exact hc'

/-- A closed source names vertices of a mesh however many there are. -/
theorem lt_vertices_of_closed (hsource : source.Closed) {path : String} {h : Mesh.Header}
    {mesh : Mesh h} (hmesh : source.load path h = .ok mesh) {f : Mesh.Face} (hf : f ∈ mesh.faces)
    {i : UInt32} (hi : i ∈ f.corners) : i.toNat < h.vertices := by
  rcases Nat.lt_or_ge h.vertices wordValues with hlt | hge
  · exact hsource path h mesh hmesh hlt f hf i hi
  · exact i.toNat_lt.trans_le hge

/-! ## Instances -/

/-- The box of an entity's instance reaches around the shape that the entity names, as the transform
places it. -/
structure Assembly.Surrounds (a : Assembly) (scene : Scene) (source : Mesh.Source) (e : Entity)
    (i : Bvh.Instance) (s : LoadedShape) (mesh : Mesh s.info.header) : Prop where
  shape : a.geometry.shapes[i.shape]? = some s ∧ s.info.name = e.shape
  loaded : ∃ known, (knownShapes scene.shapes).get? e.shape = some known ∧
    source.load known.path s.info.header = .ok mesh
  box : i.box = s.box.transform e.transform
  /-- If all vertices are finite, and so is the transform, which is without perspective, the box spans
  the rounded images of the corners of every triangle. Transformed in exact numbers, the box of the
  shape contains their images. -/
  corners : ∀ face < s.info.faces.length, ∃ own t, mesh.faces[face]? = some own ∧
    trianglePoints? mesh.vertices.toArray own = some t ∧
    (a.geometry.vertices.size < wordValues →
      a.geometry.triangle? (s.info.faces.offset + face) = some t) ∧
    ((∀ v ∈ mesh.vertices, v.position.Finite) → e.transform.Finite → e.transform.value.Affine →
      ∀ corner ∈ t.corners, i.box.Spans (e.transform.project corner) ∧
        (s.box.value.exact.transform e.transform.value.exact).Contains
          (e.transform.value.project corner.value).exact)

/-- The boxes of all instances reach around their shapes. -/
theorem Stages.Make.surrounds {x : Stages} (hmake : x.Make scene source a) (hsource : source.Closed)
    (hk : scene.entities[k]? = some e) :
    ∃ i s mesh, a.instances[k]? = some i ∧ a.Surrounds scene source e i s mesh := by
  obtain ⟨p, slot, hof, -, -, -, hinstance⟩ := hmake.entity hk
  have hs : p.loaded ∈ a.geometry.shapes := Array.mem_of_getElem? hof.loaded
  obtain ⟨parts, hloads⟩ := ShapeTable.of_load hmake.geometry
  obtain ⟨j, part, hpart, hmade⟩ := hloads.exists_part hs
  have hmem : part ∈ parts := List.mem_of_getElem? hpart
  have hinfo : p.loaded.info ∈ x.table.registered :=
    hmade.info ▸ hloads.registered ▸ List.mem_map_of_mem hmem
  obtain ⟨known, hknown, hpath, -⟩ := hmake.exists_known hinfo
  have hload := hloads.mesh part hmem
  rw [← hmade.info] at hload
  obtain ⟨mesh, hmesh, hvertices, -⟩ := ShapeInfo.exists_mesh_of_load hload
  have hbox : (instanceOf p.entity p.shape p.loaded).box = p.loaded.box.transform e.transform :=
    congrArg (fun e : Entity => p.loaded.box.transform e.transform) hof.entity
  refine ⟨_, p.loaded, mesh, hinstance, ⟨hof.loaded, hof.named⟩,
    ⟨known, hof.named ▸ hknown, hpath ▸ hmesh⟩, hbox, fun face hface => ?_⟩
  have hown (i : UInt32) (hi : i ∈ (mesh.faces[face]).corners) :
      i.toNat < mesh.vertices.toArray.size :=
    (lt_vertices_of_closed hsource hmesh (Vector.getElem_mem hface) hi).trans_eq
      mesh.vertices.size_toArray.symm
  obtain ⟨t, ht, hcorners⟩ := exists_corners_mem hown
  refine ⟨mesh.faces[face], t, Vector.getElem?_eq_getElem hface, ht, ?_, ?_⟩
  · intro hwords
    obtain ⟨known', mesh', hknown', hmesh', hholds⟩ := hmake.holdsMesh hsource hwords hs
    obtain rfl := Option.some.inj (hknown.symm.trans hknown')
    obtain rfl := Except.ok.inj ((hpath ▸ hmesh).symm.trans hmesh')
    obtain ⟨own, placed, hown', hplaced, hplaces⟩ := hholds.face face hface
    obtain rfl := Option.some.inj ((Vector.getElem?_eq_getElem hface).symm.trans hown')
    obtain ⟨t', ht', hplacedTriangle⟩ := hplaces.triangle
    obtain rfl := Option.some.inj (ht.symm.trans ht')
    rw [Geometry.triangle?, hplaced]
    exact hplacedTriangle
  · intro hfinite hm haffine corner hcorner
    have hpoints : p.loaded.box = .ofPoints (mesh.vertices.toList.map (·.position)) :=
      hvertices ▸ hmade.box
    have hfinite' : ∀ p ∈ mesh.vertices.toList.map (·.position), p.Finite := by
      rw [List.forall_mem_map]
      exact fun v hv => hfinite v (Vector.mem_toList_iff.1 hv)
    have hreaches := Box.ofPoints_transform hfinite' (hcorners corner hcorner) hm haffine
    rwa [← hpoints, ← hbox] at hreaches

/-- Boxes are transformed to the least ones around what they contain, whatever the signs of a matrix
without perspective are, and what is empty stays as it is. So the boxes of all instances of an
assembled scene reach around their shapes. -/
theorem transform_surrounds :
    (∀ (b : Box ℝ) (m : Mat4 ℝ), b.isEmpty = false → m.Affine →
      b.IsLeastImage m (b.exact.transform m.exact)) ∧
    (∀ (b : Box EReal) (m : Mat4 EReal), b.isEmpty = true → b.transform m = b) ∧
    (∀ (b : Box Float32) (m : Mat4 Float32), b.isEmpty = true → b.transform m = b) ∧
    ∀ (scene : Scene) (source : Mesh.Source), ((∃ read, source = .ofFiles read) ∨ source.Closed) →
      ∀ a, scene.assemble source = .ok a → ∀ (k : Nat) e, scene.entities[k]? = some e →
        ∃ i s mesh, a.instances[k]? = some i ∧ a.Surrounds scene source e i s mesh := by
  refine ⟨fun _ _ => Box.isLeastImage_transform, fun _ m h => Box.transform_of_isEmpty h m,
    fun _ m h => Box.transform_of_isEmpty h m, ?_⟩
  intro scene source hsource a h k e hk
  have hclosed : source.Closed := by
    rcases hsource with ⟨read, rfl⟩ | hclosed
    · exact Mesh.Source.closed_ofFiles read
    · exact hclosed
  obtain ⟨x, hmake⟩ := exists_stages h
  exact hmake.surrounds hclosed hk

/-! ## A small scene -/

/-- The square has two triangles, and its vertices are finite. -/
theorem of_load_square {h : Mesh.Header} {mesh : Mesh h}
    (hmesh : squareMesh.load "square.ply" h = .ok mesh) :
    h.faces = 2 ∧ ∀ v ∈ mesh.vertices, v.position.Finite := by
  have hzero : (0 : Float32).isFinite = true := Single.denotes_zero.hasValue.1
  have hone : (1 : Float32).isFinite = true := Single.denotes_one.hasValue.1
  rw [squareMesh, Mesh.Source.ofArrays] at hmesh
  simp only [if_true, Mesh.ofArrays] at hmesh
  split at hmesh
  next heq =>
    cases hmesh
    refine ⟨heq.2.symm, fun v hv => ?_⟩
    have hv := (Vector.mem_toArray_iff v _).2 hv
    simp only [List.mem_toArray, List.mem_cons, List.not_mem_nil, or_false] at hv
    rcases hv with rfl | rfl | rfl | rfl <;> rintro (_ | _ | _) <;> assumption
  next => cases hmesh

/-- The transform that moves nothing is finite and without perspective. -/
theorem finite_identity : (Mat4.identity : Mat4 Float32).Finite ∧
    (Mat4.identity : Mat4 Float32).value.Affine := by
  obtain ⟨hzero, hzero'⟩ := Single.denotes_zero.hasValue
  obtain ⟨hone, hone'⟩ := Single.denotes_one.hasValue
  have hcast : ((Single.value 0 : ℚ) : ℝ) = 0 := by rw [hzero', Rat.cast_zero]
  have hcast' : ((Single.value 1 : ℚ) : ℝ) = 1 := by rw [hone', Rat.cast_one]
  refine ⟨⟨⟨?_, hzero⟩, ⟨?_, hzero⟩, ⟨?_, hzero⟩, ⟨?_, hone⟩⟩, hcast, hcast, hcast, hcast'⟩
  all_goals rintro (_ | _ | _) <;> assumption

/-- A cube under a matrix that mirrors it and makes it flat, the empty boxes, and two squares. -/
theorem squares_surrounded :
    (Box.mk (.splat (-1)) (.splat 1)).IsLeastImage
      ⟨⟨-1, 0, 0, 0⟩, ⟨0, 2, 0, 0⟩, ⟨0, 0, 0, 0⟩, ⟨3, 0, 0, 1⟩⟩
      ((Box.mk (.splat (-1)) (.splat 1)).exact.transform
        (Mat4.mk ⟨-1, 0, 0, 0⟩ ⟨0, 2, 0, 0⟩ ⟨0, 0, 0, 0⟩ ⟨3, 0, 0, 1⟩).exact) ∧
    (Box.empty : Box EReal).transform .identity = .empty ∧
    (Box.empty : Box Float32).transform .identity = .empty ∧
    ∃ a i s, ∃ mesh : Mesh s.info.header, squares.assemble squareMesh = .ok a ∧
      a.instances[0]? = some i ∧
      a.Surrounds squares squareMesh ⟨"left", "square", {}, .identity⟩ i s mesh ∧
      s.info.faces.length = 2 ∧ (∀ v ∈ mesh.vertices, v.position.Finite) ∧
      (Mat4.identity : Mat4 Float32).Finite ∧ (Mat4.identity : Mat4 Float32).value.Affine := by
  obtain ⟨hleast, hempty, hempty', hscenes⟩ := transform_surrounds
  refine ⟨?_, hempty _ _ ?_, hempty' _ _ (by decide +kernel), ?_⟩
  · refine hleast _ _ ?_ ⟨rfl, rfl, rfl, rfl⟩
    simp only [Box.isEmpty, Vec3.splat, Bool.or_eq_false_iff]
    norm_num
  · simp [Box.isEmpty, Box.empty, Vec3.splat, Extremes.lowest, Extremes.highest]
  · obtain ⟨a, ha⟩ := assemble_squares
    obtain ⟨i, s, mesh, hinstance, hsurrounds⟩ :=
      hscenes squares squareMesh (.inr closed_squareMesh) a ha 0 _ rfl
    obtain ⟨known, hknown, hmesh⟩ := hsurrounds.loaded
    obtain rfl : known = ⟨"square", "square.ply", ["plain", "glow"]⟩ :=
      Option.some.inj (hknown.symm.trans (by rfl))
    obtain ⟨hfaces, hfinite⟩ := of_load_square hmesh
    exact ⟨a, i, s, mesh, ha, hinstance, hsurrounds, hfaces, hfinite, finite_identity⟩

end Candela.Scene
