import Candela.Proofs.Lighting.Blocks
import Candela.Proofs.Scene.Instances

/-!
# Lights of an assembled scene

An assembled scene has its lights in one table and its entities in another, and each is told where
it is found in the other one. `Assembly.Linked` says that they are told the truth: the table of
lights begins with the lights of the scene in their order, the entities that radiate light follow,
and the index and the range that such an entity has been given are those of its light. The order in
which a scene lists its lights does not matter, as long as those of one kind and name keep theirs. A
scene without a world, or with several, is not assembled; but the shapes of its entities are
registered first, and what is wrong with these is found before (`assemble_lights`,
`ghost_missingShape`).
-/

namespace Candela.Scene

variable {scene : Scene} {source : Mesh.Source} {a : Assembly}

/-- An entity with the given shape radiates light if the shape has triangles and a surface that
does, and its light has got its index and its range. -/
structure Assembly.Lit (a : Assembly) (scene : Scene) (k : Nat) (e : Entity) (p : Placement)
    (s : LoadedShape) : Prop where
  light_iff : p.light.isSome ↔ 0 < s.info.faces.length ∧
    ∃ known, (knownShapes scene.shapes).get? e.shape = some known ∧
      ∃ material ∈ known.palette, ∃ g, scene.materials.get? material = some g ∧
        g.hasSurfaceEmission = true
  light : ∀ slot, p.light = some slot → ∃ l, a.lights.emitters[slot.light]? = some l ∧
    l.kind = .shape ∧ l.entity = k ∧ l.range = slot.range ∧ l.faceCount = s.info.faces.length

/-- Lights and entities are told where they find each other. -/
structure Assembly.Linked (a : Assembly) (scene : Scene) : Prop where
  blocks : a.lights.Blocks
  /-- The lights of the scene come first, sorted, each with its material. -/
  lights : ∃ sorted emitters, sorted.Perm scene.lights ∧
    sorted.Pairwise (fun x y => Lighting.precedes x y = true) ∧
    List.Forall₂ (Lighting.Emits a.materials) sorted emitters ∧
    a.lights.emitters = emitters ++ a.lights.ofType .shape
  entity : ∀ (k : Nat) e, scene.entities[k]? = some e → ∃ p i s, a.placements[k]? = some p ∧
    a.instances[k]? = some i ∧ a.geometry.shapes[i.shape]? = some s ∧ s.info.name = e.shape ∧
    a.Lit scene k e p s
  /-- The light of a shape has an entity, which has been told its index. -/
  told : ∀ (j : Nat) l, a.lights.emitters[j]? = some l → l.kind = .shape →
    ∃ p slot, a.placements[l.entity]? = some p ∧ p.light = some slot ∧ slot.light = j
  /-- The ranges of all distributions lie side by side. -/
  faces : Arena.Tiles 0 ((a.lights.ofType .shape).map Emitter.range) a.lights.faces.length

/-- Whether a shape radiates light is said by the palette that the scene has for it. -/
theorem radiates_iff {s : LoadedShape} {known : Shape} {graphs : Keyed Graph}
    (h : s.info.Describes graphs known) : s.radiates = true ↔ 0 < s.info.faces.length ∧
      ∃ material ∈ known.palette, ∃ g, graphs.get? material = some g ∧
        g.hasSurfaceEmission = true := by
  rw [LoadedShape.radiates, Bool.and_eq_true, h.hasEmission, List.any_eq_true, and_comm]
  refine and_congr ?_ (exists_congr fun material =>
    and_congr_right fun _ => Materials.hasEmission_iff)
  simp [Arena.Range.isEmpty, Nat.pos_iff_ne_zero]

namespace Stages.Make

variable {x : Stages}

/-- The lights that are finished are those of the scene, sorted, and the entities that radiate
light. -/
theorem emits (hmake : x.Make scene source a) :
    List.Forall₂ (Lighting.Emits a.materials) (scene.lights.mergeSort Lighting.precedes)
      x.final.emitters := by
  obtain ⟨-, hemitters, -⟩ := Lighting.Draft.of_ofLights hmake.draft
  rw [hmake.enlisted.continues.emitters]
  exact (Lighting.emits_of_emittersOf hemitters).2

section

variable {shapes : List Emitter} {distributions : List (List Float32)}

/-- An entity is lit by what has been finished. -/
theorem lit (hmake : x.Make scene source a)
    (hfinished : x.final.Finished x.lights shapes distributions) {k : Nat} {e : Entity} {p : Placed} {slot : Option Lighting.Slot} (hof : p.Of a.geometry e)
    (hp : (x.placed scene a.geometry)[k]? = some p) (hslot : x.slots[k]? = some slot) :
    a.Lit scene k e (p.placement a.packed.roots slot) p.loaded := by
  obtain ⟨⟨known, hknown, hdescribes⟩, -, -⟩ := hmake.shape hof.loaded
  rw [hof.named] at hknown
  have hradiates : p.loaded.radiates = true ↔ 0 < p.loaded.info.faces.length ∧
      ∃ known, (knownShapes scene.shapes).get? e.shape = some known ∧
        ∃ material ∈ known.palette, ∃ g, scene.materials.get? material = some g ∧
          g.hasSurfaceEmission = true := by
    rw [radiates_iff hdescribes]
    refine and_congr_right fun _ => ⟨fun h => ⟨known, hknown, h⟩, fun ⟨known', hknown', h⟩ => ?_⟩
    rw [hknown] at hknown'
    cases hknown'
    exact h
  cases hmake.slotted hp hslot with
  | dark hdark =>
    refine ⟨?_, nofun⟩
    rw [← hradiates, hdark]
    exact ⟨nofun, nofun⟩
  | @radiant j l s hlight hl hlslot hindex hentity hshape hcount =>
    refine ⟨iff_of_true rfl (hradiates.1 hlight), fun slot hs => ?_⟩
    cases hs
    -- its light stands behind the lights without shapes, where it has been added
    obtain ⟨emitter, hemitter, area, rfl⟩ := forall₂_getElem? hfinished.shapes hl
    refine ⟨l.emitter area, ?_, rfl, hentity, congrArg Lighting.Slot.range hlslot, ?_⟩
    · rw [hmake.lights, hfinished.emitters, hindex,
        List.getElem?_append_right (Nat.le_add_right _ _), Nat.add_sub_cancel_left, hemitter]
    · rw [← hcount, ← hlslot]
      rfl

/-- The light of a shape is that of an entity which has been told its index. -/
theorem lightTold (hmake : x.Make scene source a)
    (hfinished : x.final.Finished x.lights shapes distributions) {j : Nat} {l : Emitter}
    (hl : a.lights.emitters[j]? = some l) (hkind : l.kind = .shape) :
    ∃ p slot, a.placements[l.entity]? = some p ∧ p.light = some slot ∧ slot.light = j := by
  rw [hmake.lights, hfinished.emitters] at hl
  have hbehind : x.final.emitters.length ≤ j := by
    refine Nat.le_of_not_lt fun hlt => ?_
    rw [List.getElem?_append_left hlt] at hl
    exact Lighting.kind_ne_shape hmake.emits (List.mem_of_getElem? hl) hkind
  rw [List.getElem?_append_right hbehind] at hl
  obtain ⟨l', hl', area, rfl⟩ := forall₂_getElem? hfinished.shapes.flip hl
  have hslot : x.slots[l'.entity]? = some (some l'.slot) := hmake.told (List.mem_of_getElem? hl')
  have hlt : l'.entity < (x.placed scene a.geometry).length := by
    rw [← hmake.enlisted.length]
    exact (List.getElem?_eq_some_iff.1 hslot).1
  refine ⟨(x.placed scene a.geometry)[l'.entity].placement a.packed.roots (some l'.slot), l'.slot,
    ?_, rfl, ?_⟩
  · show a.placements[l'.entity]? = _
    rw [hmake.placements, List.getElem?_zipWith, List.getElem?_eq_getElem hlt, hslot]
  · rw [hmake.enlisted.ordered.light _ l' hl']
    omega

end

/-- What has been made of a scene is linked. -/
theorem linked (hmake : x.Make scene source a) : a.Linked scene := by
  obtain ⟨shapes, distributions, hfinished⟩ := Lighting.Draft.exists_finished hmake.finished
  have hperm := List.mergeSort_perm scene.lights Lighting.precedes
  have hsorted := Lighting.pairwise_sort scene.lights
  have hworld : ((scene.lights.mergeSort Lighting.precedes).filter (·.isWorld)).length = 1 := by
    rw [(hperm.filter _).length_eq]
    exact (Lighting.Draft.of_ofLights hmake.draft).1
  have hshape : a.lights.ofType .shape = shapes := by
    rw [hmake.lights]
    exact hfinished.ofType_shape hmake.emits
  refine
    { blocks := ?_
      lights := ⟨_, x.final.emitters, hperm, hsorted, hmake.emits, ?_⟩
      entity := fun k e hk => ?_
      told := fun j l hl hkind => hmake.lightTold hfinished hl hkind
      faces := ?_ }
  · rw [hmake.lights]
    exact (hfinished.blocks hmake.emits hsorted hworld).setInstanceCount _
  · rw [hshape, hmake.lights]
    exact hfinished.emitters
  · obtain ⟨p, slot, hof, hp, hslot, hplacement, hinstance⟩ := hmake.entity hk
    exact ⟨_, _, p.loaded, hplacement, hinstance, hof.loaded, hof.named,
      hmake.lit hfinished hof hp hslot⟩
  · rw [hshape, hmake.lights]
    exact hfinished.tiles hmake.enlisted.ordered

end Stages.Make

/-! ## Other lights -/

/-- The lights of a scene only matter in the order into which they are sorted. -/
theorem assemble_reordered {lights : List Light} (h : Lighting.Reordered scene.lights lights) :
    assemble { scene with lights } source = scene.assemble source := by
  have hcompiled (m : Materials) :
      Lighting.Draft.ofLights lights m = Lighting.Draft.ofLights scene.lights m := by
    rw [Lighting.Draft.ofLights, Lighting.Draft.ofLights, ← (h.perm.filter _).length_eq,
      ← Lighting.mergeSort_eq_of_reordered h]
  simp only [assemble, hcompiled]

/-- What is wrong with a scene that has this many worlds. -/
def worldError : Nat → Error
  | 0 => .missingWorldLight
  | n => .multipleWorldLights n

/-- A scene that has no world or several is not assembled, and unless its shapes cannot even be
registered, this is what is wrong with it. -/
theorem assemble_of_worlds (h : (scene.lights.filter (·.isWorld)).length ≠ 1) :
    scene.assemble source = shapesOf source (.ofShapes scene.shapes) (.ofGraphs scene.materials)
      scene.entities >>= fun _ => .error (worldError (scene.lights.filter (·.isWorld)).length) := by
  have hlights (m : Materials) : Lighting.Draft.ofLights scene.lights m =
      .error (worldError (scene.lights.filter (·.isWorld)).length) := by
    rw [Lighting.Draft.ofLights]
    split
    next hnone =>
      rw [hnone]
      rfl
    next hone => exact absurd hone h
    next hnone _ =>
      rw [worldError]
      exact hnone
  rw [assemble]
  simp only [hlights]
  rfl

/-- The lights and the entities of an assembled scene are linked, whatever the order in which the
scene lists its lights. Without exactly one world a scene is not assembled: if its shapes cannot be
registered, this is reported, and otherwise what is wrong with its worlds. -/
theorem assemble_lights (scene : Scene) (source : Mesh.Source) :
    (∀ a, scene.assemble source = .ok a → a.Linked scene) ∧
    (∀ lights, Lighting.Reordered scene.lights lights →
      assemble { scene with lights } source = scene.assemble source) ∧
    (∀ lights, scene.lights.Perm lights → (scene.lights.map Lighting.sortKey).Nodup →
      assemble { scene with lights } source = scene.assemble source) ∧
    ((scene.lights.filter (·.isWorld)).length ≠ 1 →
      (∀ e, shapesOf source (.ofShapes scene.shapes) (.ofGraphs scene.materials) scene.entities =
        .error e → scene.assemble source = .error e) ∧
      ∀ r, shapesOf source (.ofShapes scene.shapes) (.ofGraphs scene.materials) scene.entities =
        .ok r → scene.assemble source =
          .error (worldError (scene.lights.filter (·.isWorld)).length)) := by
  refine ⟨fun a ha => ?_, fun lights h => assemble_reordered h, fun lights hperm hnodup => ?_,
    fun hworlds => ⟨fun e he => ?_, fun r hr => ?_⟩⟩
  · obtain ⟨x, hmake⟩ := exists_stages ha
    exact hmake.linked
  · exact assemble_reordered (Lighting.reordered_of_perm hperm hnodup)
  · rw [assemble_of_worlds hworlds, he]
    rfl
  · rw [assemble_of_worlds hworlds, hr]
    rfl

/-- Two entities that radiate light, and a sun that is listed before the world; the same scene with
its lights in the other order, without any, and with the world twice. -/
theorem squares_lights : ∃ a, squares.assemble squareMesh = .ok a ∧ a.Linked squares ∧
    assemble { squares with lights := squares.lights.reverse } squareMesh = .ok a ∧
    assemble { squares with lights := [] } squareMesh = .error .missingWorldLight ∧
    assemble { squares with lights := squares.lights ++ squares.lights } squareMesh =
      .error (.multipleWorldLights 2) := by
  obtain ⟨a, ha⟩ := assemble_squares
  obtain ⟨hlinked, -, hperm, -⟩ := assemble_lights squares squareMesh
  obtain ⟨x, hmake⟩ := exists_stages ha
  refine ⟨a, ha, hlinked a ha, ?_, ?_, ?_⟩
  · rw [hperm _ (List.reverse_perm _).symm (by decide), ha]
  · exact ((assemble_lights { squares with lights := [] } squareMesh).2.2.2 (by decide)).2 _
      hmake.shapes
  · exact ((assemble_lights { squares with lights := squares.lights ++ squares.lights }
      squareMesh).2.2.2 (by decide)).2 _ hmake.shapes

/-- A scene without lights, whose entity has no shape. -/
def ghost : Scene where
  materials := .empty
  shapes := []
  entities := [⟨"e", "ghost", {}, .identity⟩]
  lights := []
  viewpoint := none

/-- Of a scene without a world it is not always the world that is reported. -/
theorem ghost_missingShape : (ghost.lights.filter (·.isWorld)).length = 0 ∧
    ghost.assemble squareMesh = .error (.missingShape "ghost") ∧
    ghost.assemble squareMesh ≠ .error .missingWorldLight := by
  have hmissing : ghost.assemble squareMesh = .error (.missingShape "ghost") := rfl
  refine ⟨rfl, hmissing, ?_⟩
  rw [hmissing]
  nofun

end Candela.Scene
