import Candela.Proofs.Graph.Emission
import Candela.Proofs.Material.Compiled
import Candela.Proofs.Scene.Faces
import Candela.Proofs.Scene.Lights

/-!
# Light that an assembled scene does not miss

A triangle of an assembled scene has a surface, which is a function that has been compiled from the
graph of a material in its shape's palette (`Stages.Make.surface`). If the function runs an emitter,
light is found in the graph; so the surface is flagged as one that radiates light, and so are all
shapes with the material in their palettes. Every instance of such a shape is a light
(`assemble_emission`).
-/

namespace Candela

variable {m m' : Materials}

/-! ## Functions of an assembled scene -/

/-- A run: the lights of a scene ask for their materials. -/
theorem Lighting.sound_of_emittersOf {lights : List Scene.Light} {es : List Emitter}
    (hm : m.Sound) (h : emittersOf m lights = .ok (es, m')) : m'.Sound := by
  induction lights generalizing m es with
  | nil =>
    cases h
    exact hm
  | cons l rest ih =>
    rw [emittersOf] at h
    cases hindex : m.index .light l.material with
    | mk answer m₁ =>
      rw [hindex] at h
      cases answer with
      | error e => cases h
      | ok shader =>
        obtain ⟨⟨es', m₂⟩, hrest, hpure⟩ := bind_eq_ok.1 h
        cases pure_eq_ok.1 hpure
        exact ih (hm.of_index hindex) hrest

namespace Scene

variable {t t' : ShapeTable} {scene : Scene} {source : Mesh.Source} {a : Assembly} {x : Stages}

/-- A run: a palette asks for its materials. -/
theorem sound_of_surfacesOf {names : List String} {is : List Nat} (hm : m.Sound)
    (h : surfacesOf m names = .ok (is, m')) : m'.Sound := by
  induction names generalizing m is with
  | nil =>
    cases h
    exact hm
  | cons name rest ih =>
    rw [surfacesOf] at h
    cases hindex : m.index .surface name with
    | mk answer m₁ =>
      rw [hindex] at h
      cases answer with
      | error e => cases h
      | ok i =>
        obtain ⟨⟨is', m₂⟩, hrest, hpure⟩ := bind_eq_ok.1 h
        cases pure_eq_ok.1 hpure
        exact ih (hm.of_index hindex) hrest

/-- A run: the entities of a scene ask for their shapes. -/
theorem sound_of_shapesOf {entities : List Entity} {is : List Nat} (hm : m.Sound)
    (h : shapesOf source t m entities = .ok (is, t', m')) : m'.Sound := by
  induction entities generalizing t m is with
  | nil =>
    cases h
    exact hm
  | cons e rest ih =>
    obtain ⟨⟨i, t₁, m₁⟩, hindex, h⟩ := bind_eq_ok.1 h
    obtain ⟨⟨is', t₂, m₂⟩, hrest, hpure⟩ := bind_eq_ok.1 h
    cases pure_eq_ok.1 hpure
    refine ih ?_ hrest
    rcases ShapeTable.index_cases hindex with ⟨-, -, rfl⟩ | ⟨s, palette, -, -, -, hpalette, -⟩
    · exact hm
    · exact sound_of_surfacesOf hm hpalette

namespace Stages.Make

/-- The functions of an assembled scene have been compiled from the graphs of the scene. -/
theorem sound_materials (hmake : x.Make scene source a) :
    a.materials.Sound ∧ a.materials.graphs = scene.materials := by
  have hemitters := (Lighting.Draft.of_ofLights hmake.draft).2.1
  have hshapes := ((ShapeTable.sound_ofShapes scene.shapes _).shapesOf rfl hmake.shapes).2.1
  refine ⟨Lighting.sound_of_emittersOf ?_ hemitters, ?_⟩
  · exact sound_of_shapesOf (Materials.sound_ofGraphs _) hmake.shapes
  · exact (hshapes.trans (Lighting.emits_of_emittersOf hemitters).1).graphs

end Stages.Make

/-! ## Surfaces of triangles -/

/-- The surface of a triangle: it is the function of a material in the palette of the triangle's
shape, compiled from the graph of the material. -/
structure Assembly.Surface (a : Assembly) (scene : Scene) (s : LoadedShape) (face : Mesh.Face)
    (surface : Nat) (f : Shader.Function) (g : Graph) : Prop where
  material : face.material = surface.toUInt32
  /-- The triangle names it, unless there are more surfaces than words. -/
  named : a.materials.surfaceCount ≤ wordValues → face.material.toNat = surface
  function : (a.materials.shaders.functions.filter (·.role = .surface))[surface]? = some f
  graph : scene.materials.get? f.title = some g
  complete : f.Complete g
  palette : ∃ known, (knownShapes scene.shapes).get? s.info.name = some known ∧
    f.title ∈ known.palette

/-- An instance is found among the lights as a light with a shape. -/
def Assembly.IsLight (a : Assembly) (k : Nat) : Prop :=
  ∃ p slot l, a.placements[k]? = some p ∧ p.light = some slot ∧
    a.lights.emitters[slot.light]? = some l ∧ l.kind = .shape ∧ l.entity = k

namespace Stages.Make

/-- Every triangle of a loaded shape has a surface. -/
theorem surface (hmake : x.Make scene source a) {s : LoadedShape} (hs : s ∈ a.geometry.shapes)
    {i : Nat} (hi : i < s.info.faces.length) :
    ∃ face surface f g, a.geometry.faces[s.info.faces.offset + i]? = some face ∧
      a.Surface scene s face surface f g := by
  obtain ⟨parts, hloads⟩ := ShapeTable.of_load hmake.geometry
  obtain ⟨k, part, hpart, hmade⟩ := hloads.exists_part hs
  obtain ⟨info, box, hierarchy⟩ := s
  obtain rfl : info = part.1 := hmade.info
  have hmem : part ∈ parts := List.mem_of_getElem? hpart
  obtain ⟨known, hknown, -, hprepared⟩ :=
    hmake.exists_known (hloads.registered ▸ List.mem_map_of_mem hmem)
  obtain ⟨mesh, -, -, hfaces⟩ := ShapeInfo.exists_mesh_of_load (hloads.mesh part hmem)
  have hown : mesh.faces.toList[i]? = some mesh.faces[i] :=
    Vector.getElem?_toList.trans (Vector.getElem?_eq_getElem hi)
  obtain ⟨face, hface, hplace⟩ := forall₂_getElem? hfaces hown
  obtain ⟨-, surface, hsurface, hmaterial⟩ := ShapeInfo.of_placeFace hplace
  -- the palette of the shape names the material that has been compiled as this surface
  obtain ⟨name, hname, hindex⟩ := forall₂_getElem? hprepared.palette.flip hsurface
  obtain ⟨hlt, hcompiled, -⟩ := List.idxOf?_eq_some_iff.1 hindex
  have htitle := List.getElem?_eq_some_iff.2 ⟨hlt, hcompiled⟩
  rw [Materials.compiled, List.getElem?_map, Option.map_eq_some_iff] at htitle
  obtain ⟨f, hf, rfl⟩ := htitle
  obtain ⟨hsound, hgraphs⟩ := hmake.sound_materials
  obtain ⟨g, hg, hcomplete⟩ :=
    hsound.complete f (List.mem_of_mem_filter (List.mem_of_getElem? hf))
  refine ⟨face, surface, f, g, (hloads.getElem?_faces hmake.sound.faces hpart hi).trans hface,
    hmaterial, fun hwords => ?_, hf, hgraphs ▸ hg, hcomplete, known, hknown,
    List.mem_of_getElem? hname⟩
  rw [hmaterial]
  exact UInt32.toNat_ofNat_of_lt' (Nat.lt_of_lt_of_le hlt hwords)

/-- An instance of a shape that has triangles, and a material in its palette in whose graph light is
found, is a light. -/
theorem isLight (hmake : x.Make scene source a) {j : Nat} {s : LoadedShape}
    (hs : a.geometry.shapes[j]? = some s) (hfaces : 0 < s.info.faces.length)
    {known : Shape} (hknown : (knownShapes scene.shapes).get? s.info.name = some known)
    {material : String} (hmaterial : material ∈ known.palette) {g : Graph}
    (hg : scene.materials.get? material = some g) (hlight : g.hasSurfaceEmission = true)
    {k : Nat} {i : Bvh.Instance} (hi : a.instances[k]? = some i) (hshape : i.shape = j) :
    a.IsLight k := by
  have hk : k < scene.entities.length := by
    rw [← hmake.length_instances]
    exact (List.getElem?_eq_some_iff.1 hi).1
  obtain ⟨p, i', s', hp, hi', hs', hnamed, hlit⟩ :=
    hmake.linked.entity k _ (List.getElem?_eq_getElem hk)
  rw [hi] at hi'
  obtain rfl := Option.some.inj hi'
  rw [hshape, hs] at hs'
  obtain rfl := Option.some.inj hs'
  have hsome := hlit.light_iff.2
    ⟨hfaces, known, hnamed ▸ hknown, material, hmaterial, g, hg, hlight⟩
  obtain ⟨slot, hslot⟩ := Option.isSome_iff_exists.1 hsome
  obtain ⟨l, hl, hkind, hentity, -⟩ := hlit.light slot hslot
  exact ⟨p, slot, l, hp, hslot, hl, hkind, hentity⟩

end Stages.Make

/-- A surface whose graph is found to radiate light is flagged. -/
theorem Assembly.Surface.flagged {s : LoadedShape} {face : Mesh.Face} {surface : Nat}
    {f : Shader.Function} {g : Graph} (h : a.Surface scene s face surface f g)
    (hgraphs : a.materials.graphs = scene.materials) (hlight : g.hasSurfaceEmission = true) :
    a.materials.emissiveSurfaces[surface]? = some true := by
  rw [Materials.emissiveSurfaces, Materials.compiled, List.map_map, List.getElem?_map, h.function]
  refine congrArg some (Materials.hasEmission_iff.2 ⟨g, ?_, hlight⟩)
  rw [hgraphs]
  exact h.graph

/-! ## Main result -/

/-- Light is found in every graph whose function, compiled as a surface, runs an emitter that is
switched on. So the surface of a triangle of an assembled scene is flagged if its function runs one,
and all instances of the triangle's shape are lights. -/
theorem assemble_emission :
    (∀ requests title g i f,
      ((Shader.Library.after requests).add title g .surface).1 = .ok i →
      ((Shader.Library.after requests).add title g .surface).2.functions =
        (Shader.Library.after requests).functions ++ [f] →
      f.RunsEmitter g → g.hasSurfaceEmission = true) ∧
    ∀ (scene : Scene) (source : Mesh.Source) (a : Assembly), scene.assemble source = .ok a →
      ∀ (j : Nat) s, a.geometry.shapes[j]? = some s → ∀ i < s.info.faces.length,
        ∃ face surface f g, a.geometry.faces[s.info.faces.offset + i]? = some face ∧
          a.Surface scene s face surface f g ∧
          (f.RunsEmitter g → a.materials.emissiveSurfaces[surface]? = some true ∧
            ∀ k instance', a.instances[k]? = some instance' → instance'.shape = j → a.IsLight k) := by
  constructor
  · intro requests title g i f hok hfunctions hruns
    have haddition := Shader.Library.add_addition
      (Shader.Library.after_wellFormed requests) title g .surface
    rw [show (Shader.Library.after requests).add title g .surface = (.ok i, _) from
      Prod.ext hok rfl] at haddition
    obtain ⟨f', hrole, -, hcomplete, hfunctions'⟩ := haddition.exists_complete
    obtain rfl : f = f' := by
      rw [hfunctions] at hfunctions'
      exact List.singleton_inj.1 (List.append_cancel_left hfunctions')
    exact hcomplete.hasSurfaceEmission hrole hruns
  · intro scene source a hassemble j s hs i hi
    obtain ⟨x, hmake⟩ := exists_stages hassemble
    obtain ⟨face, surface, f, g, hface, hsurface⟩ :=
      hmake.surface (Array.mem_of_getElem? hs) hi
    refine ⟨face, surface, f, g, hface, hsurface, fun hruns => ?_⟩
    have hrole : f.role = .surface := by
      have hmem := List.mem_of_getElem? hsurface.function
      simpa using (List.mem_filter.1 hmem).2
    have hlight := hsurface.complete.hasSurfaceEmission hrole hruns
    obtain ⟨known, hknown, hmaterial⟩ := hsurface.palette
    refine ⟨hsurface.flagged hmake.sound_materials.2 hlight, fun k _ hk hshape => ?_⟩
    exact hmake.isLight hs (Nat.zero_lt_of_lt hi) hknown hmaterial hsurface.graph hlight hk hshape

/-- A function of the glowing surface runs its emitter. -/
theorem runsEmitter_glow {f : Shader.Function} (h : f.Complete glow) (hrole : f.role = .surface) :
    f.RunsEmitter glow := by
  have hfirst : glow.IsFirst f.role.accepts "Output" := by
    rw [hrole]
    exact Shader.chosenOutput?_eq_some_iff.1 (by decide +kernel)
  have hreads : glow.Reads "Output" "Emission" :=
    ⟨_, _, rfl, rfl, _, List.mem_cons_self, rfl, _, rfl, rfl⟩
  obtain ⟨b, hb, hnode⟩ := List.mem_map.1 ((h.reached "Emission").2 ⟨_, hfirst, .single hreads⟩)
  obtain ⟨node, hget, hsignature⟩ := h.kernel b hb
  obtain rfl : node = ⟨.emission, .empty⟩ := by
    rw [hnode] at hget
    exact (Option.some.inj hget).symm
  have hname : some b.invocation.signature.name = some "Emission" :=
    (Shader.mem_catalogue_of_signature? hsignature).2.symm
  refine ⟨b, hb, ?_, _, hget, .inl rfl⟩
  rw [Option.some.inj hname]
  exact List.mem_cons_self

/-- The glowing surface of two squares is found, compiled alone or in a scene, and both squares are
lights. -/
theorem squares_emission :
    (∃ f, ((Shader.Library.after []).add "glow" glow .surface).2.functions = [f] ∧
      f.RunsEmitter glow ∧ glow.hasSurfaceEmission = true) ∧
    ∃ a s face f, squares.assemble squareMesh = .ok a ∧ a.geometry.shapes[0]? = some s ∧
      a.geometry.faces[s.info.faces.offset + 1]? = some face ∧
      a.Surface squares s face 1 f glow ∧ f.RunsEmitter glow ∧
      a.materials.emissiveSurfaces[1]? = some true ∧ a.IsLight 0 ∧ a.IsLight 2 := by
  constructor
  · have hadd : ((Shader.Library.after []).add "glow" glow .surface).1 = .ok 0 := by
      decide +kernel
    have haddition := Shader.Library.add_addition
      (Shader.Library.after_wellFormed []) "glow" glow .surface
    rw [show (Shader.Library.after []).add "glow" glow .surface = (.ok 0, _) from
      Prod.ext hadd rfl] at haddition
    obtain ⟨f, hrole, -, hcomplete, hfunctions⟩ := haddition.exists_complete
    have hruns := runsEmitter_glow hcomplete hrole
    exact ⟨f, hfunctions, hruns,
      assemble_emission.1 [] "glow" glow 0 f hadd hfunctions hruns⟩
  · obtain ⟨a, ha⟩ := assemble_squares
    have hseen : (squares.assemble squareMesh).toOption.map (fun a =>
        (a.geometry.shapes.toList.map (·.info.faces), a.geometry.faces.toList.map (·.material),
          a.materials.compiled .surface, a.instances.map (·.shape))) =
        some ([⟨0, 2⟩, ⟨2, 0⟩], [0, 1], ["plain", "glow"], [0, 1, 0]) := by
      simp only [assemble, Lighting.Draft.ofLights, sort_squares]
      decide +kernel
    rw [ha] at hseen
    simp only [Except.toOption, Option.map_some, Option.some.injEq, Prod.mk.injEq] at hseen
    obtain ⟨hranges, hmaterials, hcompiled, hinstances⟩ := hseen
    obtain ⟨s, hs, hrange⟩ : ∃ s, a.geometry.shapes.toList[0]? = some s ∧ s.info.faces = ⟨0, 2⟩ :=
      Option.map_eq_some_iff.1 (by rw [← List.getElem?_map, hranges]; rfl)
    have hinstance (k : Nat) (hk : [0, 1, 0][k]? = some 0) :
        ∃ i, a.instances[k]? = some i ∧ i.shape = 0 :=
      Option.map_eq_some_iff.1 (by rw [← List.getElem?_map, hinstances, hk])
    rw [Array.getElem?_toList] at hs
    obtain ⟨face, surface, f, g, hface, hsurface, hlit⟩ :=
      assemble_emission.2 squares squareMesh a ha 0 s hs 1 (by rw [hrange]; decide)
    -- the second triangle has the second surface, which is that of the glowing material
    have hsecond : face.material = 1 := by
      have hmaterial := congrArg (·[1]?) hmaterials
      rw [hrange] at hface
      simpa [List.getElem?_map, hface] using hmaterial
    obtain rfl : 1 = surface := by
      have hwords : a.materials.surfaceCount ≤ wordValues := by
        rw [Materials.surfaceCount, hcompiled]
        decide
      rw [← hsurface.named hwords, hsecond]
      rfl
    have htitle : f.title = "glow" := by
      have hname := congrArg (·[1]?) hcompiled
      simpa [Materials.compiled, List.getElem?_map, hsurface.function] using hname
    obtain rfl : glow = g := by
      have hgraph := hsurface.graph
      rw [htitle] at hgraph
      exact Option.some.inj hgraph
    have hrole : f.role = .surface := by
      simpa using (List.mem_filter.1 (List.mem_of_getElem? hsurface.function)).2
    have hruns := runsEmitter_glow hsurface.complete hrole
    obtain ⟨hflag, hlights⟩ := hlit hruns
    obtain ⟨left, hleft, hshape⟩ := hinstance 0 rfl
    obtain ⟨right, hright, hshape'⟩ := hinstance 2 rfl
    exact ⟨a, s, face, f, ha, hs, hface, hsurface, hruns, hflag, hlights 0 left hleft hshape,
      hlights 2 right hright hshape'⟩

end Scene

end Candela
