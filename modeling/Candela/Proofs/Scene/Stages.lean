import Candela.Proofs.Lighting.Order
import Candela.Proofs.Scene.Shapes
import Candela.Scene.Assembly

/-!
# The stages of an assembly

A scene that has been assembled has gone through every stage, and each stage had an answer
(`Stages.Make`, `exists_stages`). What is said of an assembled scene is said of what its stages have
come to. The first thing is that every entity has got the shape that it names
(`Stages.Make.placed`).
-/

namespace Candela.Scene

variable {scene : Scene} {source : Mesh.Source} {a : Assembly} {g : Geometry}

/-- What the stages of an assembly come to. -/
structure Stages where
  /-- The index of every entity's shape. -/
  shapeIds : List Nat
  table : ShapeTable
  /-- The materials after all shapes have been registered. -/
  materials : Materials
  /-- The lights without shapes. -/
  draft : Lighting.Draft
  /-- The places of the entities among the lights. -/
  slots : List (Option Lighting.Slot)
  /-- All lights. -/
  final : Lighting.Draft
  lights : Lighting.Table

/-- The entities with their shapes. -/
def Stages.placed (x : Stages) (scene : Scene) (g : Geometry) : List Placed :=
  placedOf g scene.entities x.shapeIds

/-- The stages make an assembled scene of a scene. -/
structure Stages.Make (x : Stages) (scene : Scene) (source : Mesh.Source) (a : Assembly) :
    Prop where
  shapes : shapesOf source (.ofShapes scene.shapes) (.ofGraphs scene.materials) scene.entities =
    .ok (x.shapeIds, x.table, x.materials)
  draft : Lighting.Draft.ofLights scene.lights x.materials = .ok (x.draft, a.materials)
  geometry : x.table.load source = .ok a.geometry
  slots : lightsOf 0 x.draft (x.placed scene a.geometry) = .ok (x.slots, x.final)
  finished : x.final.finish a.geometry a.materials.emissiveSurfaces.toArray = .ok x.lights
  instances : a.instances =
    (x.placed scene a.geometry).map fun p => instanceOf p.entity p.shape p.loaded
  packed : a.packed = Bvh.pack (a.geometry.shapes.toList.map (·.hierarchy)) a.instances
  placements : a.placements =
    (x.placed scene a.geometry).zipWith (fun p slot => p.placement a.packed.roots slot) x.slots
  lights : a.lights = { x.lights with uniforms.instanceCount := a.placements.length }

/-- An assembled scene has been made by stages. -/
theorem exists_stages (h : scene.assemble source = .ok a) :
    ∃ x : Stages, x.Make scene source a := by
  obtain ⟨⟨shapeIds, table, materials⟩, hshapes, h⟩ := bind_eq_ok.1 h
  obtain ⟨⟨draft, materials'⟩, hdraft, h⟩ := bind_eq_ok.1 h
  obtain ⟨geometry, hgeometry, h⟩ := bind_eq_ok.1 h
  obtain ⟨⟨slots, final⟩, hslots, h⟩ := bind_eq_ok.1 h
  obtain ⟨lights, hlights, hpure⟩ := bind_eq_ok.1 h
  cases pure_eq_ok.1 hpure
  exact ⟨⟨shapeIds, table, materials, draft, slots, final, lights⟩, hshapes, hdraft, hgeometry,
    hslots, hlights, rfl, rfl, rfl, rfl⟩

/-! ## Entities and their shapes -/

/-- An entity has got the shape that it names. -/
structure Placed.Of (p : Placed) (g : Geometry) (e : Entity) : Prop where
  entity : p.entity = e
  loaded : g.shapes[p.shape]? = some p.loaded
  named : p.loaded.info.name = e.shape

/-- Entities whose shapes are there get them. -/
theorem placedOf_of_forall₂ {entities : List Entity} {shapes : List Nat}
    (h : List.Forall₂ (fun e i => ∃ s, g.shapes[i]? = some s ∧ s.info.name = e.shape)
      entities shapes) :
    List.Forall₂ (fun e (p : Placed) => p.Of g e) entities (placedOf g entities shapes) := by
  induction h with
  | nil => exact .nil
  | @cons e i entities shapes hi _ ih =>
    obtain ⟨s, hs, hname⟩ := hi
    have hplaced : placedOf g (e :: entities) (i :: shapes) =
        ⟨e, i, s⟩ :: placedOf g entities shapes := by
      simp [placedOf, hs]
    rw [hplaced]
    exact .cons ⟨rfl, hs, hname⟩ ih

namespace Stages.Make

variable {x : Stages}

/-- The shapes have been registered as the scene has them. -/
theorem sound (hmake : x.Make scene source a) :
    x.table.Sound (knownShapes scene.shapes) scene.materials :=
  ((ShapeTable.sound_ofShapes _ _).shapesOf rfl hmake.shapes).1

/-- Every entity has got the shape that it names. -/
theorem placed (hmake : x.Make scene source a) :
    List.Forall₂ (fun e (p : Placed) => p.Of a.geometry e) scene.entities
      (x.placed scene a.geometry) := by
  obtain ⟨parts, hloads⟩ := ShapeTable.of_load hmake.geometry
  refine placedOf_of_forall₂ ?_
  refine ((ShapeTable.sound_ofShapes _ _).shapesOf rfl hmake.shapes).2.2.named.imp fun e i hi => ?_
  obtain ⟨info, hinfo, hname⟩ := hi
  rw [← hloads.infos, List.getElem?_map, Option.map_eq_some_iff] at hinfo
  obtain ⟨s, hs, rfl⟩ := hinfo
  exact ⟨s, Array.getElem?_toList ▸ hs, hname⟩

/-- Loaded shapes are as the scene has them, and no two have the same name. -/
theorem unique (hmake : x.Make scene source a) {i j : Nat} {s s' : LoadedShape}
    (hs : a.geometry.shapes[i]? = some s) (hs' : a.geometry.shapes[j]? = some s')
    (hname : s.info.name = s'.info.name) : i = j := by
  obtain ⟨parts, hloads⟩ := ShapeTable.of_load hmake.geometry
  have hnodup := hmake.sound.nodup
  rw [← hloads.infos, List.map_map] at hnodup
  have hi : i < a.geometry.shapes.toList.length := (Array.getElem?_eq_some_iff.1 hs).1
  have hmem {k : Nat} {s : LoadedShape} (hs : a.geometry.shapes[k]? = some s) :
      (a.geometry.shapes.toList.map fun s => s.info.name)[k]? = some s.info.name := by
    rw [List.getElem?_map, Array.getElem?_toList, hs, Option.map_some]
  have hlt : i < (a.geometry.shapes.toList.map fun s => s.info.name).length := by
    rwa [List.length_map]
  refine (List.getElem?_inj hlt hnodup).1 ?_
  exact (hmem hs).trans (hname ▸ (hmem hs').symm)

end Stages.Make

/-! ## A small scene -/

/-- A surface that radiates light. -/
def glow : Graph where
  nodes := .ofList
    [("Emission", ⟨.emission, .empty⟩),
     ("Output", ⟨.outputMaterial, .ofList [("Surface", ⟨.shader, [⟨"Emission", "Emission"⟩], none⟩)]⟩)]

/-- A square of two triangles, and a mesh without any. -/
def squareMesh : Mesh.Source :=
  let vertex (x y : Float32) : Mesh.Vertex := ⟨⟨x, y, 0⟩, ⟨0, 0, 1⟩, x, y⟩
  .ofArrays fun path =>
    if path = "square.ply" then
      some (#[vertex 0 0, vertex 1 0, vertex 0 1, vertex 1 1], #[⟨0, 1, 2, 0⟩, ⟨1, 3, 2, 1⟩])
    else some (#[], #[])

/-- Two squares that radiate light, an entity without triangles between them, and a sun. -/
def squares : Scene where
  materials := .ofList [("glow", glow), ("plain", ⟨.empty⟩)]
  shapes := [⟨"nothing", "nothing.ply", ["glow"]⟩, ⟨"square", "square.ply", ["plain", "glow"]⟩]
  entities := [⟨"left", "square", {}, .identity⟩, ⟨"middle", "nothing", {}, .identity⟩,
    ⟨"right", "square", { camera := false }, .identity⟩]
  lights := [⟨"sun", "plain", true, false, .sun ⟨⟨0, 0, -1⟩, 1, ⟨1, 1, 1⟩, 0⟩⟩,
    ⟨"sky", "plain", true, true, .world⟩]
  viewpoint := none

/-- The world comes first. -/
theorem sort_squares : squares.lights.mergeSort Lighting.precedes = squares.lights.reverse := by
  have hreordered : Lighting.Reordered squares.lights squares.lights.reverse :=
    Lighting.reordered_of_perm (List.reverse_perm _).symm (by decide)
  rw [Lighting.mergeSort_eq_of_reordered hreordered]
  exact List.mergeSort_of_pairwise (by decide)

theorem assemble_squares : ∃ a, squares.assemble squareMesh = .ok a := by
  have hok : (squares.assemble squareMesh).toBool = true := by
    simp only [assemble, Lighting.Draft.ofLights, sort_squares]
    decide +kernel
  cases h : squares.assemble squareMesh with
  | error e =>
    rw [h] at hok
    cases hok
  | ok a => exact ⟨a, rfl⟩

end Candela.Scene
