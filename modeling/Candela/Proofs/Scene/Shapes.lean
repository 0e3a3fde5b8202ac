import Candela.Proofs.Arena
import Candela.Proofs.Keyed
import Candela.Proofs.Material
import Candela.Proofs.Result
import Candela.Scene.Geometry

/-!
# Registered and loaded shapes

However entities ask for shapes, every name is registered once, as the scene has it, and the ranges
that are reserved lie side by side (`ShapeTable.Sound`, which asking for a shape keeps by
`ShapeTable.Sound.index`). So each entity has the index of the shape that it names
(`ShapeTable.Sound.shapesOf`). What is loaded fills the ranges: the hierarchy of a shape is that of
the triangles in its range of the triangles of all shapes (`ShapeTable.Loads.fills`).
-/

namespace Candela.Scene

variable {known : Keyed Shape} {graphs : Keyed Graph} {t t' : ShapeTable} {m m' : Materials}
  {source : Mesh.Source} {g : Geometry} {info : ShapeInfo} {i : Nat}

/-! ## Registering -/

/-- What has been registered is a shape of the scene. -/
structure ShapeInfo.Describes (info : ShapeInfo) (graphs : Keyed Graph) (s : Shape) : Prop where
  name : info.name = s.name
  path : info.path = s.path
  hasEmission : info.hasEmission = s.palette.any (Materials.ofGraphs graphs).hasEmission

/-- The shapes that have been registered are some of those that are known, each of them once, and
what has been reserved for them lies side by side. -/
structure ShapeTable.Sound (t : ShapeTable) (known : Keyed Shape) (graphs : Keyed Graph) :
    Prop where
  known_eq : t.known = known
  /-- Shapes are known by their names. -/
  named : ∀ name s, known.get? name = some s → s.name = name
  describes : ∀ info ∈ t.registered, ∃ s, known.get? info.name = some s ∧ info.Describes graphs s
  nodup : (t.registered.map (·.name)).Nodup
  vertices : Arena.Tiles 0 (t.registered.map (·.vertices)) t.reserved.vertices
  faces : Arena.Tiles 0 (t.registered.map (·.faces)) t.reserved.faces

/-- The shapes of a scene by their names; of several with one name it is the last one. -/
def knownShapes (shapes : List Shape) : Keyed Shape := .ofList (shapes.map fun s => (s.name, s))

/-- Nothing has been registered at first. -/
theorem ShapeTable.sound_ofShapes (shapes : List Shape) (graphs : Keyed Graph) :
    (ShapeTable.ofShapes shapes).Sound (knownShapes shapes) graphs where
  known_eq := rfl
  named name s h := by
    obtain ⟨_, -, heq⟩ := List.mem_map.1 (Keyed.mem_of_get?_ofList h)
    cases heq
    rfl
  describes := nofun
  nodup := .nil
  vertices := rfl
  faces := rfl

/-- The surfaces of a palette are compiled one after another. -/
theorem surfacesOf_extends {names : List String} {is : List Nat}
    (h : surfacesOf m names = .ok (is, m')) : m.Extends m' := by
  induction names generalizing m is with
  | nil =>
    cases h
    exact .refl _
  | cons name rest ih =>
    rw [surfacesOf] at h
    cases hindex : m.index .surface name with
    | mk answer m₁ =>
      rw [hindex] at h
      cases answer with
      | error e => cases h
      | ok j =>
        obtain ⟨⟨js, m₂⟩, hrest, hpure⟩ := bind_eq_ok.1 h
        cases pure_eq_ok.1 hpure
        exact (Materials.index_extends hindex).trans (ih hrest)

/-- Every material of a palette gets its surface index. -/
theorem idxOf?_of_surfacesOf {names : List String} {is : List Nat}
    (h : surfacesOf m names = .ok (is, m')) :
    List.Forall₂ (fun name i => (m'.compiled .surface).idxOf? name = some i) names is := by
  induction names generalizing m is with
  | nil =>
    cases h
    exact .nil
  | cons name rest ih =>
    rw [surfacesOf] at h
    cases hindex : m.index .surface name with
    | mk answer m₁ =>
      rw [hindex] at h
      cases answer with
      | error e => cases h
      | ok j =>
        obtain ⟨⟨js, m₂⟩, hrest, hpure⟩ := bind_eq_ok.1 h
        cases pure_eq_ok.1 hpure
        exact .cons ((surfacesOf_extends hrest).idxOf? (Materials.idxOf?_of_index hindex)) (ih hrest)

/-- What is registered under a new name: the shape as the scene has it, with ranges after all that
have been reserved. -/
theorem ShapeTable.of_add {s : Shape} {palette : List Nat} {hasEmission : Bool}
    {header : Mesh.Header} (h : t.add s palette hasEmission header = .ok t') :
    t'.known = t.known ∧ t'.registered = t.registered ++ [{
        name := s.name
        path := s.path
        vertices := ⟨t.reserved.vertices, header.vertices⟩
        faces := ⟨t.reserved.faces, header.faces⟩
        palette, hasEmission }] ∧
      t'.reserved = ⟨t.reserved.vertices + header.vertices, t.reserved.faces + header.faces⟩ := by
  rw [add] at h
  split at h
  · cases h
    exact ⟨rfl, rfl, rfl⟩
  · cases h

/-- What asking for a shape comes to: it has been registered before, or it is now. -/
theorem ShapeTable.index_cases {name : String} (h : t.index source m name = .ok (i, t', m')) :
    t.registered.findIdx? (·.name == name) = some i ∧ t' = t ∧ m' = m ∨
    ∃ s palette header, t.registered.findIdx? (·.name == name) = none ∧
      t.known.get? name = some s ∧ surfacesOf m s.palette = .ok (palette, m') ∧
      source.header s.path = .ok header ∧
      t.add s palette (s.palette.any m'.hasEmission) header = .ok t' ∧
      i = t.registered.length := by
  unfold ShapeTable.index at h
  split at h
  next j hfound =>
    cases h
    exact .inl ⟨hfound, rfl, rfl⟩
  next hnone =>
    split at h
    next => cases h
    next s hs =>
      obtain ⟨⟨palette, m₁⟩, hpalette, h⟩ := bind_eq_ok.1 h
      obtain ⟨header, hheader, h⟩ := bind_eq_ok.1 h
      obtain ⟨next, hadd, hpure⟩ := bind_eq_ok.1 h
      cases pure_eq_ok.1 hpure
      exact .inr ⟨s, palette, header, hnone, hs, hpalette, hheader, hadd, rfl⟩

namespace ShapeTable

/-- Asking for a shape keeps what has been registered, and gives the index under which the shape is
registered. -/
structure Asked (t t' : ShapeTable) (name : String) (i : Nat) : Prop where
  keeps : t.registered <+: t'.registered
  named : ∃ info, t'.registered[i]? = some info ∧ info.name = name

/-- Registering a shape of the scene under a new name keeps the table sound. -/
theorem Sound.add (hsound : t.Sound known graphs) {s : Shape} {palette : List Nat}
    {header : Mesh.Header} (hs : known.get? s.name = some s)
    (hnew : s.name ∉ t.registered.map (·.name))
    (h : t.add s palette (s.palette.any (Materials.ofGraphs graphs).hasEmission) header = .ok t') :
    t'.Sound known graphs := by
  obtain ⟨hknown, hregistered, hreserved⟩ := of_add h
  refine ⟨hknown.trans hsound.known_eq, hsound.named, ?_, ?_, ?_, ?_⟩
  · rw [hregistered]
    intro info hinfo
    rcases List.mem_append.1 hinfo with hold | hmem
    · exact hsound.describes info hold
    · obtain rfl := List.mem_singleton.1 hmem
      exact ⟨s, hs, rfl, rfl, rfl⟩
  · rw [hregistered, List.map_append]
    refine List.nodup_append.2 ⟨hsound.nodup, List.nodup_singleton _, ?_⟩
    rintro a ha b hb rfl
    obtain rfl := List.mem_singleton.1 hb
    exact hnew ha
  · rw [hregistered, hreserved, List.map_append]
    exact hsound.vertices.concat header.vertices
  · rw [hregistered, hreserved, List.map_append]
    exact hsound.faces.concat header.faces

/-- A step: asking for a shape. -/
theorem Sound.index (hsound : t.Sound known graphs) (hgraphs : m.graphs = graphs) {name : String}
    (h : t.index source m name = .ok (i, t', m')) :
    t'.Sound known graphs ∧ m.Extends m' ∧ t.Asked t' name i := by
  rcases index_cases h with
    ⟨hfound, rfl, rfl⟩ | ⟨s, palette, header, hnone, hs, hpalette, -, hadd, rfl⟩
  · obtain ⟨hlt, hname, -⟩ := List.findIdx?_eq_some_iff_getElem.1 hfound
    exact ⟨hsound, .refl _, List.prefix_refl _, _, List.getElem?_eq_getElem hlt, eq_of_beq hname⟩
  · rw [hsound.known_eq] at hs
    obtain rfl := hsound.named name s hs
    have hextends := surfacesOf_extends hpalette
    have hnew : s.name ∉ t.registered.map (·.name) := by
      intro hmem
      obtain ⟨info, hinfo, hname⟩ := List.mem_map.1 hmem
      simpa [hname] using List.findIdx?_eq_none_iff.1 hnone info hinfo
    have hemission : m'.hasEmission = (Materials.ofGraphs graphs).hasEmission := by
      funext material
      rw [hextends.hasEmission, Materials.hasEmission, hgraphs]
      rfl
    have hregistered := (of_add hadd).2.1
    refine ⟨hsound.add hs hnew (hemission ▸ hadd), hextends, ?_, ?_⟩
    · rw [hregistered]
      exact List.prefix_append _ _
    · rw [hregistered]
      exact ⟨_, List.getElem?_concat_length, rfl⟩

/-- All entities have asked for their shapes, and each has got the index of the one that it
names. -/
structure AllAsked (t t' : ShapeTable) (entities : List Entity) (is : List Nat) : Prop where
  keeps : t.registered <+: t'.registered
  named : List.Forall₂ (fun e i => ∃ info, t'.registered[i]? = some info ∧ info.name = e.shape)
    entities is

/-- A run: all entities ask for their shapes. -/
theorem Sound.shapesOf (hsound : t.Sound known graphs) (hgraphs : m.graphs = graphs)
    {entities : List Entity} {is : List Nat}
    (h : Scene.shapesOf source t m entities = .ok (is, t', m')) :
    t'.Sound known graphs ∧ m.Extends m' ∧ t.AllAsked t' entities is := by
  induction entities generalizing t m is with
  | nil =>
    cases h
    exact ⟨hsound, .refl _, List.prefix_refl _, .nil⟩
  | cons e rest ih =>
    obtain ⟨⟨j, t₁, m₁⟩, hindex, h⟩ := bind_eq_ok.1 h
    obtain ⟨⟨js, t₂, m₂⟩, hrest, hpure⟩ := bind_eq_ok.1 h
    cases pure_eq_ok.1 hpure
    obtain ⟨hsound₁, hextends₁, hasked⟩ := hsound.index hgraphs hindex
    obtain ⟨hsound₂, hextends₂, hall⟩ := ih hsound₁ (hextends₁.graphs.trans hgraphs) hrest
    obtain ⟨info, hinfo, hname⟩ := hasked.named
    obtain ⟨hlt, hget⟩ := List.getElem?_eq_some_iff.1 hinfo
    refine ⟨hsound₂, hextends₁.trans hextends₂, hasked.keeps.trans hall.keeps,
      .cons ⟨info, ?_, hname⟩ hall.named⟩
    rw [List.prefix_iff_getElem?.1 hall.keeps j hlt, hget]

end ShapeTable

/-! ## Loading -/

/-- A loaded shape has the hierarchy of the triangles in its range. -/
structure Geometry.Fills (g : Geometry) (s : LoadedShape) : Prop where
  stop_le : s.info.faces.stop ≤ g.faces.size
  hierarchy : ∃ triangles : List Triangle, triangles.length = s.info.faces.length ∧
    (∀ i < triangles.length, g.triangle? (s.info.faces.offset + i) = triangles[i]?) ∧
    s.hierarchy = Bvh.ofBoxes (triangles.map fun t => .ofPoints t.corners)

/-- A mesh that is loaded has as many vertices and triangles as have been reserved. -/
theorem ShapeInfo.of_load {vertices : List Mesh.Vertex} {faces : List Mesh.Face}
    (h : info.load source = .ok (vertices, faces)) :
    vertices.length = info.vertices.length ∧ faces.length = info.faces.length := by
  obtain ⟨mesh, -, h⟩ := bind_eq_ok.1 h
  obtain ⟨placed, hplaced, hpure⟩ := bind_eq_ok.1 h
  cases pure_eq_ok.1 hpure
  have hlength := (mapM_eq_ok.1 hplaced).length_eq
  exact ⟨mesh.vertices.length_toList, hlength.symm.trans mesh.faces.length_toList⟩

/-- A mesh with what it has been registered as. -/
abbrev Part := ShapeInfo × List Mesh.Vertex × List Mesh.Face

/-- A loaded shape is made of a mesh. -/
structure LoadedShape.MadeOf (s : LoadedShape) (vertices : Array Mesh.Vertex) (part : Part) :
    Prop where
  info : s.info = part.1
  box : s.box = .ofPoints (part.2.1.map (·.position))
  hierarchy : hierarchyOf vertices part.2.2 = .ok s.hierarchy

/-- Meshes that have been loaded one by one. -/
theorem Part.of_loads {infos : List ShapeInfo} {parts : List Part}
    (h : List.Forall₂ (fun info part => part.1 = info ∧ info.load source = .ok part.2) infos
      parts) :
    parts.map (·.1) = infos ∧ ∀ part ∈ parts, part.1.load source = .ok part.2 := by
  induction h with
  | nil => exact ⟨rfl, nofun⟩
  | cons hpart _ ih =>
    obtain ⟨rfl, hload⟩ := hpart
    exact ⟨congrArg _ ih.1, List.forall_mem_cons.2 ⟨hload, ih.2⟩⟩

/-- What loading comes to: all meshes one after the other, and the shapes that are made of them. -/
structure ShapeTable.Loads (t : ShapeTable) (source : Mesh.Source) (g : Geometry)
    (parts : List Part) : Prop where
  registered : parts.map (·.1) = t.registered
  mesh : ∀ part ∈ parts, part.1.load source = .ok part.2
  vertices : g.vertices = (parts.map (·.2.1)).flatten.toArray
  faces : g.faces = (parts.map (·.2.2)).flatten.toArray
  shapes : List.Forall₂ (fun part s => s.MadeOf g.vertices part) parts g.shapes.toList

theorem ShapeTable.of_load (h : t.load source = .ok g) : ∃ parts, t.Loads source g parts := by
  obtain ⟨parts, hparts, h⟩ := bind_eq_ok.1 h
  obtain ⟨shapes, hshapes, hpure⟩ := bind_eq_ok.1 h
  cases pure_eq_ok.1 hpure
  have hloads : List.Forall₂ (fun info part => part.1 = info ∧ info.load source = .ok part.2)
      t.registered parts := by
    refine (mapM_eq_ok.1 hparts).imp fun info part hpart => ?_
    obtain ⟨mesh, hmesh, hpure⟩ := bind_eq_ok.1 hpart
    cases pure_eq_ok.1 hpure
    exact ⟨rfl, hmesh⟩
  obtain ⟨hregistered, hall⟩ := Part.of_loads hloads
  refine ⟨parts, hregistered, hall, rfl, rfl, (mapM_eq_ok.1 hshapes).imp fun part s hs => ?_⟩
  obtain ⟨tree, htree, hpure⟩ := bind_eq_ok.1 hs
  cases pure_eq_ok.1 hpure
  exact ⟨rfl, rfl, htree⟩

/-- The hierarchy of some triangles is that of their boxes. -/
theorem of_hierarchyOf {vertices : Array Mesh.Vertex} {faces : List Mesh.Face} {h : Bvh}
    (hh : hierarchyOf vertices faces = .ok h) :
    ∃ triangles, List.Forall₂ (fun f t => trianglePoints? vertices f = some t) faces triangles ∧
      h = Bvh.ofBoxes (triangles.map fun t => .ofPoints t.corners) := by
  rw [hierarchyOf] at hh
  split at hh
  next triangles htriangles =>
    cases hh
    exact ⟨triangles, mapM_eq_some.1 htriangles, rfl⟩
  next => cases hh

namespace ShapeTable.Loads

variable {parts : List Part}

/-- The shapes are those that have been registered, in their order. -/
theorem infos (hloads : t.Loads source g parts) :
    g.shapes.toList.map (·.info) = t.registered := by
  rw [← hloads.registered]
  exact (map_eq_map_of_forall₂ (hloads.shapes.imp fun _ _ hmade => hmade.info.symm)).symm

/-- The ranges of the vertices lie side by side. -/
theorem vertexTiles (hloads : t.Loads source g parts)
    (htiles : Arena.Tiles 0 (t.registered.map (·.vertices)) t.reserved.vertices) :
    Arena.Tiles 0 (parts.map (·.1.vertices)) t.reserved.vertices := by
  rw [← hloads.registered, List.map_map] at htiles
  exact htiles

/-- The ranges of the triangles lie side by side. -/
theorem faceTiles (hloads : t.Loads source g parts)
    (htiles : Arena.Tiles 0 (t.registered.map (·.faces)) t.reserved.faces) :
    Arena.Tiles 0 (parts.map (·.1.faces)) t.reserved.faces := by
  rw [← hloads.registered, List.map_map] at htiles
  exact htiles

/-- The vertices fill their ranges. -/
theorem vertexBlocks (hloads : t.Loads source g parts) :
    List.Forall₂ (fun r (b : List Mesh.Vertex) => b.length = r.length)
      (parts.map (·.1.vertices)) (parts.map (·.2.1)) := by
  rw [List.forall₂_map_left_iff, List.forall₂_map_right_iff, List.forall₂_same]
  exact fun part hpart => (ShapeInfo.of_load (hloads.mesh part hpart)).1

/-- The triangles fill their ranges. -/
theorem blocks (hloads : t.Loads source g parts) :
    List.Forall₂ (fun r (b : List Mesh.Face) => b.length = r.length) (parts.map (·.1.faces))
      (parts.map (·.2.2)) := by
  rw [List.forall₂_map_left_iff, List.forall₂_map_right_iff, List.forall₂_same]
  exact fun part hpart => (ShapeInfo.of_load (hloads.mesh part hpart)).2

/-- There are as many vertices as have been reserved. -/
theorem size_vertices (hloads : t.Loads source g parts)
    (htiles : Arena.Tiles 0 (t.registered.map (·.vertices)) t.reserved.vertices) :
    g.vertices.size = t.reserved.vertices := by
  rw [hloads.vertices, List.size_toArray, ← Nat.zero_add (List.length _)]
  exact (hloads.vertexTiles htiles).add_length_flatten hloads.vertexBlocks

/-- There are as many triangles as have been reserved. -/
theorem size_faces (hloads : t.Loads source g parts)
    (htiles : Arena.Tiles 0 (t.registered.map (·.faces)) t.reserved.faces) :
    g.faces.size = t.reserved.faces := by
  rw [hloads.faces, List.size_toArray, ← Nat.zero_add (List.length _)]
  exact (hloads.faceTiles htiles).add_length_flatten hloads.blocks

/-- The vertices of a mesh are found in its range. -/
theorem getElem?_vertices (hloads : t.Loads source g parts)
    (htiles : Arena.Tiles 0 (t.registered.map (·.vertices)) t.reserved.vertices)
    {k : Nat} {part : Part} (hpart : parts[k]? = some part) (hi : i < part.1.vertices.length) :
    g.vertices[part.1.vertices.offset + i]? = part.2.1[i]? := by
  have hrange : (parts.map (·.1.vertices))[k]? = some part.1.vertices := by
    rw [List.getElem?_map, hpart, Option.map_some]
  have hblock : (parts.map (·.2.1))[k]? = some part.2.1 := by
    rw [List.getElem?_map, hpart, Option.map_some]
  rw [hloads.vertices, List.getElem?_toArray]
  exact (hloads.vertexTiles htiles).getElem?_flatten hloads.vertexBlocks hrange hblock hi
    (Nat.zero_add _)

/-- The triangles of a mesh are found in its range. -/
theorem getElem?_faces (hloads : t.Loads source g parts)
    (htiles : Arena.Tiles 0 (t.registered.map (·.faces)) t.reserved.faces)
    {k : Nat} {part : Part} (hpart : parts[k]? = some part) (hi : i < part.1.faces.length) :
    g.faces[part.1.faces.offset + i]? = part.2.2[i]? := by
  have hrange : (parts.map (·.1.faces))[k]? = some part.1.faces := by
    rw [List.getElem?_map, hpart, Option.map_some]
  have hblock : (parts.map (·.2.2))[k]? = some part.2.2 := by
    rw [List.getElem?_map, hpart, Option.map_some]
  rw [hloads.faces, List.getElem?_toArray]
  exact (hloads.faceTiles htiles).getElem?_flatten hloads.blocks hrange hblock hi (Nat.zero_add _)

/-- A loaded shape is made of one of the meshes. -/
theorem exists_part (hloads : t.Loads source g parts) {s : LoadedShape} (hs : s ∈ g.shapes) :
    ∃ (k : Nat) (part : Part), parts[k]? = some part ∧ s.MadeOf g.vertices part := by
  obtain ⟨k, hk⟩ := List.mem_iff_getElem?.1 (Array.mem_toList_iff.2 hs)
  obtain ⟨part, hpart, hmade⟩ := forall₂_getElem? hloads.shapes.flip hk
  exact ⟨k, part, hpart, hmade⟩

/-- A loaded shape has the hierarchy of the triangles in its range. -/
theorem fills (hloads : t.Loads source g parts)
    (htiles : Arena.Tiles 0 (t.registered.map (·.faces)) t.reserved.faces) {s : LoadedShape}
    (hs : s ∈ g.shapes) : g.Fills s := by
  obtain ⟨k, part, hpart, hmade⟩ := hloads.exists_part hs
  obtain ⟨triangles, htriangles, hhierarchy⟩ := of_hierarchyOf hmade.hierarchy
  have hlength : part.2.2.length = s.info.faces.length := by
    rw [hmade.info]
    exact (ShapeInfo.of_load (hloads.mesh part (List.mem_of_getElem? hpart))).2
  have hrange : s.info.faces ∈ parts.map (·.1.faces) := by
    rw [hmade.info]
    exact List.mem_map_of_mem (List.mem_of_getElem? hpart)
  refine ⟨?_, triangles, htriangles.length_eq.symm.trans hlength, fun i hi => ?_, hhierarchy⟩
  · rw [hloads.size_faces htiles]
    exact ((hloads.faceTiles htiles).bounds hrange).2
  · have hi' : i < part.1.faces.length := by
      rw [← hmade.info, ← hlength, htriangles.length_eq]
      exact hi
    obtain ⟨f, hf, ht⟩ := forall₂_getElem? htriangles.flip (List.getElem?_eq_getElem hi)
    rw [hmade.info, Geometry.triangle?, hloads.getElem?_faces htiles hpart hi', hf,
      Option.bind_some, ht, List.getElem?_eq_getElem hi]

end ShapeTable.Loads

end Candela.Scene
