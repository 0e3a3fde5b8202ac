import Candela.Proofs.Mesh.Body
import Candela.Proofs.Scene.Instances

/-!
# Triangles in their ranges

The vertices and triangles of a loaded shape stand in its ranges as they stand in its mesh
(`Assembly.HoldsMesh`). The vertices that a triangle names have moved with the range, so it is still
the same triangle, and its material has become the surface of the material that the palette has
under the number in the mesh (`Assembly.Places`). This needs a source whose meshes name vertices of
their own; mesh files are such a source. `ShapeTable.Prepared` is what the registration of the shapes
provides for it: the counts of the meshes and the surfaces of the palettes. A triangle whose material
is outside the palette is not loaded, and so neither is the scene (`assemble_meshesInPlace`).
-/

namespace Candela.Scene

variable {known : Keyed Shape} {graphs : Keyed Graph} {t t' : ShapeTable} {m m' : Materials}
  {source : Mesh.Source} {info : ShapeInfo} {i : Nat}

/-! ## Preparing -/

/-- What has been found out about a shape when it is registered: the counts of its mesh, and the
surfaces of its palette. -/
structure ShapeInfo.Prepared (info : ShapeInfo) (s : Shape) (source : Mesh.Source) (m : Materials) :
    Prop where
  header : source.header s.path = .ok info.header
  palette : List.Forall₂ (fun name surface => (m.compiled .surface).idxOf? name = some surface)
    s.palette info.palette

/-- Surfaces stay what they are. -/
theorem ShapeInfo.Prepared.mono {s : Shape} (h : info.Prepared s source m) (hm : m.Extends m') :
    info.Prepared s source m' :=
  ⟨h.header, h.palette.imp fun _ _ hi => hm.idxOf? hi⟩

/-- All registered shapes have been prepared. -/
def ShapeTable.Prepared (t : ShapeTable) (known : Keyed Shape) (source : Mesh.Source)
    (m : Materials) : Prop :=
  ∀ info ∈ t.registered, ∃ s, known.get? info.name = some s ∧ info.Prepared s source m

namespace ShapeTable

/-- A step: asking for a shape. -/
theorem Prepared.index (ht : t.Prepared known source m) (hsound : t.Sound known graphs)
    {name : String} (h : t.index source m name = .ok (i, t', m')) :
    t'.Prepared known source m' := by
  rcases index_cases h with ⟨-, rfl, rfl⟩ | ⟨s, palette, header, -, hs, hpalette, hheader, hadd, -⟩
  · exact ht
  · rw [hsound.known_eq] at hs
    obtain rfl := hsound.named name s hs
    intro info hinfo
    rw [(of_add hadd).2.1] at hinfo
    rcases List.mem_append.1 hinfo with hold | hmem
    · obtain ⟨s', hs', hprepared⟩ := ht info hold
      exact ⟨s', hs', hprepared.mono (surfacesOf_extends hpalette)⟩
    · obtain rfl := List.mem_singleton.1 hmem
      exact ⟨s, hs, hheader, idxOf?_of_surfacesOf hpalette⟩

/-- A run: all entities ask for their shapes. -/
theorem Prepared.shapesOf (ht : t.Prepared known source m) (hsound : t.Sound known graphs)
    (hgraphs : m.graphs = graphs) {entities : List Entity} {is : List Nat}
    (h : Scene.shapesOf source t m entities = .ok (is, t', m')) :
    t'.Prepared known source m' := by
  induction entities generalizing t m is with
  | nil =>
    cases h
    exact ht
  | cons e rest ih =>
    obtain ⟨⟨j, t₁, m₁⟩, hindex, h⟩ := bind_eq_ok.1 h
    obtain ⟨⟨js, t₂, m₂⟩, hrest, hpure⟩ := bind_eq_ok.1 h
    cases pure_eq_ok.1 hpure
    obtain ⟨hsound₁, hextends, -⟩ := hsound.index hgraphs hindex
    exact ih (ht.index hsound hindex) hsound₁ (hextends.graphs.trans hgraphs) hrest

end ShapeTable

/-! ## Placing -/

/-- A triangle of a mesh as it stands among those of all shapes. -/
structure Assembly.Places (a : Assembly) (info : ShapeInfo) (palette : List String)
    (mesh : Mesh info.header) (own placed : Mesh.Face) : Prop where
  /-- Its vertices have moved with the range of the shape's vertices, and are in it. -/
  corners : List.Forall₂
    (fun i j => j.toNat = info.vertices.offset + i.toNat ∧ j.toNat ∈ info.vertices)
    own.corners placed.corners
  /-- It is the triangle that it is in the mesh. -/
  triangle : ∃ t, trianglePoints? mesh.vertices.toArray own = some t ∧
    trianglePoints? a.geometry.vertices placed = some t
  /-- Its material is the surface of the one that the mesh names by its place in the palette. -/
  material : ∃ name surface, palette[own.material.toNat]? = some name ∧
    a.materials.index .surface name = (.ok surface, a.materials) ∧
    placed.material = surface.toUInt32
  /-- There is a function of this surface. -/
  material_lt : placed.material.toNat < (a.materials.shaders.table .surface).length

/-- A mesh stands in the ranges of its shape. -/
structure Assembly.HoldsMesh (a : Assembly) (info : ShapeInfo) (palette : List String)
    (mesh : Mesh info.header) : Prop where
  vertex : ∀ i < info.vertices.length,
    a.geometry.vertices[info.vertices.offset + i]? = mesh.vertices[i]?
  face : ∀ i < info.faces.length, ∃ own placed, mesh.faces[i]? = some own ∧
    a.geometry.faces[info.faces.offset + i]? = some placed ∧ a.Places info palette mesh own placed

/-- The vertices of a placed triangle have moved with the range, and its material is the surface that
the palette has for it. -/
theorem ShapeInfo.of_placeFace {own placed : Mesh.Face} (h : info.placeFace own = .ok placed) :
    List.Forall₂ (fun i j => j.toNat = info.vertices.offset.toUInt32.toNat + i.toNat)
      own.corners placed.corners ∧
    ∃ surface, info.palette[own.material.toNat]? = some surface ∧
      placed.material = surface.toUInt32 := by
  obtain ⟨moved, hmoved, h⟩ := bind_eq_ok.1 h
  split at h
  next surface hsurface =>
    have hcorners := Mesh.Face.of_rebase hmoved
    obtain rfl := pure_eq_ok.1 h
    exact ⟨hcorners, surface, hsurface, rfl⟩
  next => cases h

/-- What is loaded of a shape is its mesh, every triangle of it placed. -/
theorem ShapeInfo.exists_mesh_of_load {vertices : List Mesh.Vertex} {faces : List Mesh.Face}
    (h : info.load source = .ok (vertices, faces)) :
    ∃ mesh, source.load info.path info.header = .ok mesh ∧ vertices = mesh.vertices.toList ∧
      List.Forall₂ (fun own placed => info.placeFace own = .ok placed) mesh.faces.toList faces := by
  obtain ⟨mesh, hmesh, h⟩ := bind_eq_ok.1 h
  obtain ⟨placed, hplaced, hpure⟩ := bind_eq_ok.1 h
  cases pure_eq_ok.1 hpure
  exact ⟨mesh, hmesh, rfl, mapM_eq_ok.1 hplaced⟩

/-- Two triangles whose vertices are the same, wherever they are, are the same triangle. -/
theorem exists_trianglePoints? {vertices vertices' : Array Mesh.Vertex} {f f' : Mesh.Face}
    (h : List.Forall₂ (fun i j => ∃ v, vertices[i.toNat]? = some v ∧ vertices'[j.toNat]? = some v)
      f.corners f'.corners) :
    ∃ t, trianglePoints? vertices f = some t ∧ trianglePoints? vertices' f' = some t := by
  obtain ⟨⟨a, ha, ha'⟩, h⟩ := List.forall₂_cons.1 h
  obtain ⟨⟨b, hb, hb'⟩, h⟩ := List.forall₂_cons.1 h
  obtain ⟨⟨c, hc, hc'⟩, -⟩ := List.forall₂_cons.1 h
  refine ⟨⟨a.position, b.position, c.position⟩, ?_, ?_⟩
  · simp only [trianglePoints?, ha, hb, hc, Option.bind_eq_bind, Option.bind_some, Option.pure_def]
  · simp only [trianglePoints?, ha', hb', hc', Option.bind_eq_bind, Option.bind_some,
      Option.pure_def]

/-- A triangle that is placed stays the same, and gets the surface of its material. -/
theorem ShapeInfo.Prepared.places {a : Assembly} {s : Shape}
    (hprepared : info.Prepared s source a.materials)
    (hwords : a.geometry.vertices.size < wordValues)
    (hstop : info.vertices.stop ≤ a.geometry.vertices.size) {mesh : Mesh info.header}
    (hvertex : ∀ i < info.vertices.length,
      a.geometry.vertices[info.vertices.offset + i]? = mesh.vertices[i]?)
    {own placed : Mesh.Face} (hown : ∀ i ∈ own.corners, i.toNat < info.vertices.length)
    (h : info.placeFace own = .ok placed) : a.Places info s.palette mesh own placed := by
  obtain ⟨hcorners, surface, hsurface, hmaterial⟩ := ShapeInfo.of_placeFace h
  have hoffset : info.vertices.offset.toUInt32.toNat = info.vertices.offset := by
    refine UInt32.toNat_ofNat_of_lt' (Nat.lt_of_le_of_lt ?_ hwords)
    exact Nat.le_trans (Nat.le_add_right _ _) hstop
  rw [hoffset] at hcorners
  have hmoved := (List.forall₂_and_left _ _).2 ⟨hown, hcorners⟩
  obtain ⟨name, hname, hindex⟩ := forall₂_getElem? hprepared.palette.flip hsurface
  refine ⟨hmoved.imp fun i j hij => ?_, exists_trianglePoints? (hmoved.imp fun i j hij => ?_),
    ⟨name, surface, hname, Materials.index_of_idxOf? hindex, hmaterial⟩, ?_⟩
  · obtain ⟨hi, hj⟩ := hij
    rw [Arena.Range.mem_iff, Arena.Range.stop]
    omega
  · obtain ⟨hi, hj⟩ := hij
    refine ⟨mesh.vertices[i.toNat], ?_, ?_⟩
    · exact (Vector.getElem?_toArray ..).trans (Vector.getElem?_eq_getElem hi)
    · rw [hj, hvertex _ hi]
      exact Vector.getElem?_eq_getElem hi
  · obtain ⟨hlt, -⟩ := List.idxOf?_eq_some_iff.1 hindex
    rw [hmaterial, Materials.length_table]
    exact Nat.lt_of_le_of_lt (Nat.mod_le _ _) hlt

namespace Stages.Make

variable {x : Stages} {scene : Scene} {a : Assembly}

/-- All shapes of an assembled scene have been prepared. -/
theorem prepared (hmake : x.Make scene source a) :
    x.table.Prepared (knownShapes scene.shapes) source a.materials := by
  have hnone : (ShapeTable.ofShapes scene.shapes).Prepared (knownShapes scene.shapes) source
      (.ofGraphs scene.materials) := nofun
  have hprepared := hnone.shapesOf (ShapeTable.sound_ofShapes _ scene.materials) rfl hmake.shapes
  -- the lights only add to what has been compiled
  have hextends := (Lighting.emits_of_emittersOf (Lighting.Draft.of_ofLights hmake.draft).2.1).1
  intro info hinfo
  obtain ⟨s, hs, hinfo⟩ := hprepared info hinfo
  exact ⟨s, hs, hinfo.mono hextends⟩

/-- What a registered shape has been registered with. -/
theorem exists_known (hmake : x.Make scene source a) (hinfo : info ∈ x.table.registered) :
    ∃ s, (knownShapes scene.shapes).get? info.name = some s ∧ info.path = s.path ∧
      info.Prepared s source a.materials := by
  obtain ⟨s, hs, hprepared⟩ := hmake.prepared info hinfo
  obtain ⟨s', hs', hdescribes⟩ := hmake.sound.describes info hinfo
  cases hs.symm.trans hs'
  exact ⟨s, hs, hdescribes.path, hprepared⟩

/-- Every mesh stands in the ranges of its shape. -/
theorem holdsMesh (hmake : x.Make scene source a) (hsource : source.Closed)
    (hwords : a.geometry.vertices.size < wordValues) {s : LoadedShape} (hs : s ∈ a.geometry.shapes) :
    ∃ known, ∃ mesh : Mesh s.info.header, (knownShapes scene.shapes).get? s.info.name = some known ∧
      source.load known.path s.info.header = .ok mesh ∧
      a.HoldsMesh s.info known.palette mesh := by
  obtain ⟨parts, hloads⟩ := ShapeTable.of_load hmake.geometry
  obtain ⟨k, part, hpart, hmade⟩ := hloads.exists_part hs
  obtain ⟨info, box, hierarchy⟩ := s
  obtain rfl : info = part.1 := hmade.info
  have hmem : part ∈ parts := List.mem_of_getElem? hpart
  have hinfo : part.1 ∈ x.table.registered := hloads.registered ▸ List.mem_map_of_mem hmem
  obtain ⟨known, hknown, hpath, hprepared⟩ := hmake.exists_known hinfo
  obtain ⟨mesh, hmesh, hvertices, hfaces⟩ := ShapeInfo.exists_mesh_of_load (hloads.mesh part hmem)
  have hstop : part.1.vertices.stop ≤ a.geometry.vertices.size := by
    rw [hloads.size_vertices hmake.sound.vertices]
    exact ((hloads.vertexTiles hmake.sound.vertices).bounds (List.mem_map_of_mem hmem)).2
  have hvertex : ∀ i < part.1.vertices.length,
      a.geometry.vertices[part.1.vertices.offset + i]? = mesh.vertices[i]? := by
    intro i hi
    rw [hloads.getElem?_vertices hmake.sound.vertices hpart hi, hvertices]
    exact Vector.getElem?_toList
  have hcount : part.1.vertices.length < wordValues :=
    Nat.lt_of_le_of_lt (Nat.le_trans (Nat.le_add_left _ _) hstop) hwords
  refine ⟨known, mesh, hknown, hpath ▸ hmesh, hvertex, fun i hi => ?_⟩
  have hown : mesh.faces.toList[i]? = some mesh.faces[i] :=
    Vector.getElem?_toList.trans (Vector.getElem?_eq_getElem hi)
  obtain ⟨placed, hplaced, hplace⟩ := forall₂_getElem? hfaces hown
  refine ⟨mesh.faces[i], placed, Vector.getElem?_eq_getElem hi,
    (hloads.getElem?_faces hmake.sound.faces hpart hi).trans hplaced, ?_⟩
  exact hprepared.places hwords hstop hvertex
    (hsource _ _ mesh hmesh hcount _ (Vector.getElem_mem hi)) hplace

/-- No scene is assembled with a triangle whose material is outside the palette. -/
theorem material_lt (hmake : x.Make scene source a) {e : Entity} (he : e ∈ scene.entities)
    {known : Shape} (hknown : (knownShapes scene.shapes).get? e.shape = some known)
    {h : Mesh.Header} {mesh : Mesh h} (hheader : source.header known.path = .ok h)
    (hmesh : source.load known.path h = .ok mesh) {own : Mesh.Face} (hown : own ∈ mesh.faces) :
    own.material.toNat < known.palette.length := by
  have hasked := ((ShapeTable.sound_ofShapes _ _).shapesOf rfl hmake.shapes).2.2.named
  obtain ⟨k, hk⟩ := List.mem_iff_getElem?.1 he
  obtain ⟨_, -, info, hinfo, hname⟩ := forall₂_getElem? hasked hk
  have hinfo : info ∈ x.table.registered := List.mem_of_getElem? hinfo
  obtain ⟨s, hs, hpath, hprepared⟩ := hmake.exists_known hinfo
  rw [hname, hknown] at hs
  obtain rfl := Option.some.inj hs
  obtain rfl : h = info.header := Except.ok.inj (hheader.symm.trans hprepared.header)
  obtain ⟨parts, hloads⟩ := ShapeTable.of_load hmake.geometry
  rw [← hloads.registered] at hinfo
  obtain ⟨part, hpart, rfl⟩ := List.mem_map.1 hinfo
  obtain ⟨mesh', hmesh', -, hfaces⟩ := ShapeInfo.exists_mesh_of_load (hloads.mesh part hpart)
  rw [hpath, hmesh] at hmesh'
  obtain rfl := Except.ok.inj hmesh'
  obtain ⟨i, hi⟩ := List.mem_iff_getElem?.1 (Vector.mem_toList_iff.2 hown)
  obtain ⟨placed, -, hplace⟩ := forall₂_getElem? hfaces hi
  obtain ⟨-, surface, hsurface, -⟩ := ShapeInfo.of_placeFace hplace
  rw [hprepared.palette.length_eq]
  exact (List.getElem?_eq_some_iff.1 hsurface).1

end Stages.Make

/-! ## Assembled scenes -/

/-- The meshes of an assembled scene stand where their shapes have been registered. -/
structure Assembly.MeshesInPlace (a : Assembly) (scene : Scene) (source : Mesh.Source) : Prop where
  /-- The vertices of all shapes lie side by side. -/
  vertices : Arena.Tiles 0 (a.geometry.shapes.toList.map (·.info.vertices)) a.geometry.vertices.size
  /-- So do their triangles. -/
  faces : Arena.Tiles 0 (a.geometry.shapes.toList.map (·.info.faces)) a.geometry.faces.size
  /-- Every shape has the mesh that the scene has for it, with its palette. -/
  mesh : ∀ s ∈ a.geometry.shapes, ∃ known, ∃ mesh : Mesh s.info.header,
    (knownShapes scene.shapes).get? s.info.name = some known ∧
    source.load known.path s.info.header = .ok mesh ∧ a.HoldsMesh s.info known.palette mesh
  /-- The shapes may be loaded apart from each other, into slices of what has been reserved. -/
  filled : ∃ parts : List Part, parts.map (·.1) = a.geometry.shapes.toList.map (·.info) ∧
    (∀ part ∈ parts, part.1.load source = .ok part.2) ∧
    Arena.Filled (parts.map (·.1.vertices)) (parts.map (·.2.1)) a.geometry.vertices ∧
    Arena.Filled (parts.map (·.1.faces)) (parts.map (·.2.2)) a.geometry.faces

/-- The meshes of an assembled scene are in place if they come from files, or from any source whose
meshes name their own vertices. A triangle with a material outside the palette of its shape keeps
the scene from being assembled. -/
theorem assemble_meshesInPlace (scene : Scene) (source : Mesh.Source)
    (hsource : (∃ read, source = .ofFiles read) ∨ source.Closed) :
    (∀ a, scene.assemble source = .ok a → a.geometry.vertices.size < wordValues →
      a.MeshesInPlace scene source) ∧
    ∀ e ∈ scene.entities, ∀ known, (knownShapes scene.shapes).get? e.shape = some known →
      ∀ h (mesh : Mesh h), source.header known.path = .ok h → source.load known.path h = .ok mesh →
      ∀ own ∈ mesh.faces, known.palette.length ≤ own.material.toNat →
        ∃ error, scene.assemble source = .error error := by
  have hclosed : source.Closed := by
    rcases hsource with ⟨read, rfl⟩ | hclosed
    · exact Mesh.Source.closed_ofFiles read
    · exact hclosed
  constructor
  · intro a h hwords
    obtain ⟨x, hmake⟩ := exists_stages h
    obtain ⟨parts, hloads⟩ := ShapeTable.of_load hmake.geometry
    have hinfos : parts.map (·.1) = a.geometry.shapes.toList.map (·.info) :=
      hloads.registered.trans hloads.infos.symm
    refine ⟨?_, ?_, fun s hs => hmake.holdsMesh hclosed hwords hs, parts, hinfos, hloads.mesh, ?_, ?_⟩
    · have htiles := hmake.sound.vertices
      rwa [← hloads.infos, List.map_map, ← hloads.size_vertices hmake.sound.vertices] at htiles
    · have htiles := hmake.sound.faces
      rwa [← hloads.infos, List.map_map, ← hloads.size_faces hmake.sound.faces] at htiles
    · exact hloads.vertices ▸ (hloads.vertexTiles hmake.sound.vertices).filled hloads.vertexBlocks
    · exact hloads.faces ▸ (hloads.faceTiles hmake.sound.faces).filled hloads.blocks
  · intro e he known hknown h mesh hheader hmesh own hown houtside
    cases hassemble : scene.assemble source with
    | error error => exact ⟨error, rfl⟩
    | ok a =>
      obtain ⟨x, hmake⟩ := exists_stages hassemble
      have hinside := hmake.material_lt he hknown hheader hmesh hown
      exact absurd hinside (Nat.not_lt.2 houtside)

/-! ## The small scene -/

/-- The triangles of the square name vertices of the square. -/
theorem closed_squareMesh : squareMesh.Closed := by
  refine Mesh.Source.closed_ofArrays fun path vertices faces hpath => ?_
  split at hpath
  · cases hpath
    intro f hf i hi
    simp only [List.mem_toArray, List.mem_cons, List.not_mem_nil, or_false] at hf
    rcases hf with rfl | rfl
    all_goals
      simp only [Mesh.Face.corners, List.mem_cons, List.not_mem_nil, or_false] at hi
      rcases hi with rfl | rfl | rfl <;> decide
  · cases hpath
    simp

/-- The square without the second material of its palette, which one of its triangles has. -/
def paleSquares : Scene :=
  { squares with
    shapes := [⟨"nothing", "nothing.ply", ["glow"]⟩, ⟨"square", "square.ply", ["plain"]⟩] }

/-- The vertices of the square are loaded once, and the mesh without triangles has none. -/
theorem size_vertices_squares {a : Assembly} (h : squares.assemble squareMesh = .ok a) :
    a.geometry.vertices.size = 4 := by
  have hsize : (squares.assemble squareMesh).toOption.map (·.geometry.vertices.size) = some 4 := by
    simp only [assemble, Lighting.Draft.ofLights, sort_squares]
    decide +kernel
  rw [h] at hsize
  exact Option.some.inj hsize

/-- The squares are in place; with a palette that is too short there is no scene. -/
theorem squares_meshesInPlace :
    (∃ a, squares.assemble squareMesh = .ok a ∧ a.geometry.vertices.size < wordValues ∧
      a.MeshesInPlace squares squareMesh) ∧
    ∃ error, paleSquares.assemble squareMesh = .error error := by
  obtain ⟨a, ha⟩ := assemble_squares
  have hwords : a.geometry.vertices.size < wordValues := by
    rw [size_vertices_squares ha]
    decide
  refine ⟨⟨a, ha, hwords, ?_⟩, ?_⟩
  · exact (assemble_meshesInPlace squares squareMesh (.inr closed_squareMesh)).1 a ha hwords
  · exact (assemble_meshesInPlace paleSquares squareMesh (.inr closed_squareMesh)).2
      ⟨"left", "square", {}, .identity⟩ (by simp [paleSquares, squares])
      ⟨"square", "square.ply", ["plain"]⟩ (by rfl) _ _ rfl rfl ⟨1, 3, 2, 1⟩ (by simp)
      (by decide)

end Candela.Scene
