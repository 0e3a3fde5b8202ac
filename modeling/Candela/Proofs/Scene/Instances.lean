import Candela.Proofs.Bvh.Parts
import Candela.Proofs.Lighting.Draft
import Candela.Proofs.Scene.Stages

/-!
# Entities, lights and instances

One after another the entities that radiate light are added to the lights. In the end each of them
stands where it has been told, under its own index (`Slotted`), and no light of a shape stands there
without an entity that has been told so (`enlisted_of_lightsOf`).

The entities of an assembled scene are found under the same numbers in three places: among the
placements, among the instances, and in the leaves of the packed top level. `Assembly.Instancing`
says that, and what belongs to each of them: its shape is the one that the entity names, and the
numbers in the leaves below its root, counted from its first triangle, are the triangles of the
shape (`assemble_instancing`).
-/

namespace Candela.Scene

/-! ## Lights -/

section Lights

variable {d d' : Lighting.Draft} {p : Placed} {slot : Option Lighting.Slot} {index k : Nat}

/-- Where an entity is found among the lights. -/
inductive Slotted (d : Lighting.Draft) (k : Nat) (p : Placed) : Option Lighting.Slot → Prop where
  /-- It does not radiate light. -/
  | dark (hdark : p.loaded.radiates = false) : Slotted d k p none
  /-- It stands behind the lights without shapes, with as many triangles as its shape has. -/
  | radiant {j : Nat} {l : Lighting.ShapeLight} {s : Lighting.Slot}
      (hradiates : p.loaded.radiates = true) (hl : d.shapeLights[j]? = some l) (hslot : l.slot = s)
      (hlight : s.light = d.emitters.length + j) (hentity : l.entity = k)
      (hshape : l.shape = p.shape) (hcount : s.faceCount = p.loaded.info.faces.length) :
      Slotted d k p (some s)

/-- Lights of which more may have been added behind. -/
structure Continues (d d' : Lighting.Draft) : Prop where
  emitters : d'.emitters = d.emitters
  shapeLights : d.shapeLights <+: d'.shapeLights

theorem Continues.refl (d : Lighting.Draft) : Continues d d := ⟨rfl, List.prefix_refl _⟩

theorem Continues.trans {d'' : Lighting.Draft} (h : Continues d d') (h' : Continues d' d'') :
    Continues d d'' :=
  ⟨h'.emitters.trans h.emitters, h.shapeLights.trans h'.shapeLights⟩

/-- An entity stays where it stands. -/
theorem Slotted.mono (h : Slotted d k p slot) (hd : Continues d d') : Slotted d' k p slot := by
  cases h with
  | dark hdark => exact .dark hdark
  | @radiant j l s hradiates hl hslot hlight hentity hshape hcount =>
    obtain ⟨hlt, hget⟩ := List.getElem?_eq_some_iff.1 hl
    refine .radiant (j := j) hradiates ?_ hslot (hd.emitters ▸ hlight) hentity hshape hcount
    rw [List.prefix_iff_getElem?.1 hd.shapeLights j hlt, hget]

/-- What one more entity does to the lights. -/
structure Enlists (index : Nat) (d d' : Lighting.Draft) (p : Placed) (slot : Option Lighting.Slot) :
    Prop where
  ordered : d'.Ordered
  continues : Continues d d'
  slotted : Slotted d' index p slot
  /-- Nothing else has been added. -/
  told : ∀ l ∈ d'.shapeLights, l ∈ d.shapeLights ∨ l.entity = index ∧ slot = some l.slot

/-- A step: one entity. -/
theorem enlists_of_lightOf (hd : d.Ordered)
    (h : lightOf index p.entity p.shape p.loaded d = .ok (slot, d')) : Enlists index d d' p slot := by
  rw [lightOf] at h
  split at h
  next hradiates =>
    obtain ⟨⟨s, d₁⟩, hadd, hpair⟩ := map_eq_ok.1 h
    cases hpair
    have hordered := hd.addShape hadd
    obtain ⟨rfl, -, rfl⟩ := Lighting.Draft.of_addShape hadd
    refine ⟨hordered, ⟨rfl, List.prefix_append _ _⟩, ?_, fun l hl => ?_⟩
    · exact .radiant hradiates List.getElem?_concat_length rfl rfl rfl rfl rfl
    · refine (List.mem_append.1 hl).imp_right fun hl => ?_
      obtain rfl := List.mem_singleton.1 hl
      exact ⟨rfl, rfl⟩
  next hdark =>
    cases h
    exact ⟨hd, .refl _, .dark (Bool.eq_false_iff.2 hdark), fun _ hl => .inl hl⟩

/-- What entities do to the lights, the first of them having the given index. -/
structure Enlisted (index : Nat) (d d' : Lighting.Draft) (placed : List Placed)
    (slots : List (Option Lighting.Slot)) : Prop where
  ordered : d'.Ordered
  continues : Continues d d'
  length : slots.length = placed.length
  slotted : ∀ (k : Nat) p slot, placed[k]? = some p → slots[k]? = some slot →
    Slotted d' (index + k) p slot
  /-- Nothing else has been added. -/
  told : ∀ l ∈ d'.shapeLights,
    l ∈ d.shapeLights ∨ ∃ k, l.entity = index + k ∧ slots[k]? = some (some l.slot)

/-- A run: all entities. -/
theorem enlisted_of_lightsOf {placed : List Placed} {slots : List (Option Lighting.Slot)}
    (hd : d.Ordered) (h : lightsOf index d placed = .ok (slots, d')) :
    Enlisted index d d' placed slots := by
  induction placed generalizing index d slots with
  | nil =>
    cases h
    refine ⟨hd, .refl _, rfl, fun k p slot hp => ?_, fun _ hl => .inl hl⟩
    rw [List.getElem?_nil] at hp
    cases hp
  | cons p rest ih =>
    rw [lightsOf] at h
    obtain ⟨⟨slot, d₁⟩, hfirst, h⟩ := bind_eq_ok.1 h
    obtain ⟨⟨slots', d₂⟩, hrest, hpure⟩ := bind_eq_ok.1 h
    cases pure_eq_ok.1 hpure
    have hstep := enlists_of_lightOf hd hfirst
    have hrun := ih hstep.ordered hrest
    refine
      { ordered := hrun.ordered
        continues := hstep.continues.trans hrun.continues
        length := congrArg (· + 1) hrun.length
        slotted := fun k p' slot' hp hs => ?_
        told := fun l hl => ?_ }
    · cases k with
      | zero =>
        cases hp
        cases hs
        exact hstep.slotted.mono hrun.continues
      | succ k =>
        have hlater := hrun.slotted k p' slot' hp hs
        rwa [Nat.add_right_comm] at hlater
    · rcases hrun.told l hl with hl | ⟨k, hentity, hslot⟩
      · refine (hstep.told l hl).imp_right fun ⟨hentity, hslot⟩ => ⟨0, hentity, ?_⟩
        rw [hslot, List.getElem?_cons_zero]
      · exact .inr ⟨k + 1, by omega, hslot⟩

namespace Stages.Make

variable {x : Stages} {scene : Scene} {source : Mesh.Source} {a : Assembly}

/-- In an assembled scene all entities have gone through. -/
theorem enlisted (hmake : x.Make scene source a) :
    Enlisted 0 x.draft x.final (x.placed scene a.geometry) x.slots :=
  enlisted_of_lightsOf
    (Lighting.Draft.ordered_of_no_shapes (Lighting.Draft.of_ofLights hmake.draft).2.2) hmake.slots

/-- The entities stand among the lights where they have been told. -/
theorem slotted (hmake : x.Make scene source a) (hp : (x.placed scene a.geometry)[k]? = some p)
    (hslot : x.slots[k]? = some slot) : Slotted x.final k p slot := by
  have hslotted := hmake.enlisted.slotted k p slot hp hslot
  rwa [Nat.zero_add] at hslotted

/-- Every light of a shape is that of an entity which has been told. -/
theorem told (hmake : x.Make scene source a) {l : Lighting.ShapeLight}
    (hl : l ∈ x.final.shapeLights) : x.slots[l.entity]? = some (some l.slot) := by
  rcases hmake.enlisted.told l hl with hold | ⟨k, hentity, hslot⟩
  · rw [(Lighting.Draft.of_ofLights hmake.draft).2.2] at hold
    cases hold
  · rwa [hentity, Nat.zero_add]

end Stages.Make

end Lights

/-! ## Instances -/

variable {scene : Scene} {source : Mesh.Source} {a : Assembly} {k : Nat} {e : Entity}

/-- An entity is placed and instanced with its shape. -/
structure Assembly.Shows (a : Assembly) (scene : Scene) (e : Entity) (p : Placement)
    (i : Bvh.Instance) (s : LoadedShape) : Prop where
  toWorld : p.toWorld = e.transform
  toObject : p.toObject = e.transform.inverse ∧ i.toObject = e.transform.inverse
  visibility : p.visibility = e.visibility
  box : i.box = s.box.transform e.transform
  /-- The shape of the instance is the one that the scene has under the entity's name for it. -/
  shape : a.geometry.shapes[i.shape]? = some s ∧ s.info.name = e.shape ∧
    ∃ known, (knownShapes scene.shapes).get? e.shape = some known ∧
      s.info.Describes scene.materials known
  /-- There is no other shape of the name. -/
  shape_unique : ∀ (j : Nat) s', a.geometry.shapes[j]? = some s' → s'.info.name = e.shape →
    j = i.shape
  /-- The root is that of the shape. -/
  root : a.packed.roots[i.shape]? = some p.root
  /-- Below the root the triangles of the shape are numbered, each in one place. -/
  items : a.packed.Lists p.root s.info.faces.length
  faceOffset : p.faceOffset = s.info.faces.offset
  /-- The numbers, counted from the first triangle, are the triangles of the shape, of which the
  hierarchy below the root is made. -/
  fills : a.geometry.Fills s

/-- The entities of a scene are found everywhere under the same numbers. -/
structure Assembly.Instancing (a : Assembly) (scene : Scene) : Prop where
  placements : a.placements.length = scene.entities.length
  instances : a.instances.length = scene.entities.length
  packed : a.packed.instanceCount = scene.entities.length
  uniforms : a.lights.uniforms.instanceCount = scene.entities.length
  /-- The leaves of the top level number the entities, each in one place. -/
  top : a.packed.Lists 0 scene.entities.length
  /-- The triangles of all shapes lie side by side. -/
  faces : Arena.Tiles 0 (a.geometry.shapes.toList.map (·.info.faces)) a.geometry.faces.size
  /-- Under its number an entity is placed and instanced with its shape. -/
  entity : ∀ (k : Nat) e, scene.entities[k]? = some e →
    ∃ p i s, a.placements[k]? = some p ∧ a.instances[k]? = some i ∧ a.Shows scene e p i s

namespace Stages.Make

variable {x : Stages}

/-- There is a placement for every entity. -/
theorem length_placements (hmake : x.Make scene source a) :
    a.placements.length = scene.entities.length := by
  rw [hmake.placements, List.length_zipWith, hmake.enlisted.length, Nat.min_self]
  exact hmake.placed.length_eq.symm

/-- There is an instance for every entity. -/
theorem length_instances (hmake : x.Make scene source a) :
    a.instances.length = scene.entities.length := by
  rw [hmake.instances, List.length_map]
  exact hmake.placed.length_eq.symm

/-- What belongs to an entity: its shape, its place among the lights, its placement and its
instance. -/
theorem entity (hmake : x.Make scene source a) (hk : scene.entities[k]? = some e) :
    ∃ p : Placed, ∃ slot, p.Of a.geometry e ∧ (x.placed scene a.geometry)[k]? = some p ∧
      x.slots[k]? = some slot ∧ a.placements[k]? = some (p.placement a.packed.roots slot) ∧
      a.instances[k]? = some (instanceOf p.entity p.shape p.loaded) := by
  obtain ⟨p, hp, hof⟩ := forall₂_getElem? hmake.placed hk
  have hlt : k < x.slots.length := by
    rw [hmake.enlisted.length]
    exact (List.getElem?_eq_some_iff.1 hp).1
  refine ⟨p, x.slots[k], hof, hp, List.getElem?_eq_getElem hlt, ?_, ?_⟩
  · rw [hmake.placements, List.getElem?_zipWith, hp, List.getElem?_eq_getElem hlt]
  · rw [hmake.instances, List.getElem?_map, hp, Option.map_some]

/-- A loaded shape has been registered as the scene has it, and its hierarchy is packed. -/
theorem shape (hmake : x.Make scene source a) {i : Nat} {s : LoadedShape}
    (hs : a.geometry.shapes[i]? = some s) :
    (∃ known, (knownShapes scene.shapes).get? s.info.name = some known ∧
      s.info.Describes scene.materials known) ∧ a.geometry.Fills s ∧
      ∃ root, a.packed.roots[i]? = some root ∧ a.packed.Lists root s.info.faces.length := by
  obtain ⟨parts, hloads⟩ := ShapeTable.of_load hmake.geometry
  have hmem : s ∈ a.geometry.shapes := Array.mem_of_getElem? hs
  have hfills := hloads.fills hmake.sound.faces hmem
  refine ⟨hmake.sound.describes s.info ?_, hfills, ?_⟩
  · rw [← hloads.infos]
    exact List.mem_map_of_mem (Array.mem_toList_iff.2 hmem)
  · have hhierarchy : (a.geometry.shapes.toList.map (·.hierarchy))[i]? = some s.hierarchy := by
      rw [List.getElem?_map, Array.getElem?_toList, hs, Option.map_some]
    obtain ⟨triangles, hlength, -, htree⟩ := hfills.hierarchy
    have hitems : s.hierarchy.items.Perm (List.range s.info.faces.length) := by
      have hperm := Bvh.items_ofBoxes_perm (triangles.map fun t => .ofPoints t.corners)
      rwa [← htree, List.length_map, hlength] at hperm
    rw [hmake.packed]
    exact (Bvh.pack_lists _ a.instances).2 i _ _ hhierarchy hitems

end Stages.Make

/-- An assembled scene has all its entities under their numbers, with the shapes that they name,
wherever its meshes come from. -/
theorem assemble_instancing (scene : Scene) (source : Mesh.Source) (a : Assembly)
    (h : scene.assemble source = .ok a) : a.Instancing scene := by
  obtain ⟨x, hmake⟩ := exists_stages h
  obtain ⟨parts, hloads⟩ := ShapeTable.of_load hmake.geometry
  refine
    { placements := hmake.length_placements
      instances := hmake.length_instances
      packed := ?_
      uniforms := ?_
      top := ?_
      faces := ?_
      entity := fun k e hk => ?_ }
  · rw [hmake.packed, Bvh.pack_instanceCount, hmake.length_instances]
  · rw [hmake.lights]
    exact hmake.length_placements
  · rw [← hmake.length_instances, hmake.packed]
    exact (Bvh.pack_lists _ _).1
  · have htiles := hmake.sound.faces
    rwa [← hloads.infos, List.map_map, ← hloads.size_faces hmake.sound.faces] at htiles
  · obtain ⟨p, slot, hof, -, -, hplacement, hinstance⟩ := hmake.entity hk
    obtain ⟨hknown, hfills, root, hroot, hlists⟩ := hmake.shape hof.loaded
    have hroot' : (p.placement a.packed.roots slot).root = root := by
      rw [Placed.placement, Array.getD_eq_getD_getElem?, hroot, Option.getD_some]
    refine ⟨_, _, p.loaded, hplacement, hinstance,
      { toWorld := congrArg Entity.transform hof.entity
        toObject := ?_
        visibility := congrArg Entity.visibility hof.entity
        box := congrArg (fun e : Entity => p.loaded.box.transform e.transform) hof.entity
        shape := ⟨hof.loaded, hof.named, hof.named ▸ hknown⟩
        shape_unique := fun j s' hs' hname =>
          hmake.unique hs' hof.loaded (hname.trans hof.named.symm)
        root := hroot' ▸ hroot
        items := hroot' ▸ hlists
        faceOffset := rfl
        fills := hfills }⟩
    have hinverse := congrArg (fun e : Entity => e.transform.inverse) hof.entity
    exact ⟨hinverse, hinverse⟩

/-- Two entities with one shape, and one whose shape has no triangles. -/
theorem squares_instancing : ∃ a, squares.assemble squareMesh = .ok a ∧ a.Instancing squares := by
  obtain ⟨a, ha⟩ := assemble_squares
  exact ⟨a, ha, assemble_instancing squares squareMesh a ha⟩

end Candela.Scene
