import Candela.Proofs.Lighting.Draft
import Candela.Proofs.Lighting.Order

/-!
# The table of lights, block by block

The lights of one type stand together in the table, the types in their order, and the device is told
how long each of these blocks is (`Table.Blocks`). The first block is the world alone. That
finishing sorted lights gives such a table is `Draft.Finished.blocks`; the lights of shapes are then
those that stand behind all others (`Draft.Finished.ofType_shape`), and their ranges lie side by
side in the table of distributions (`Draft.Finished.tiles`).
-/

namespace Candela

/-- The range of a light's distribution. -/
def Emitter.range (e : Emitter) : Arena.Range := ⟨e.faceOffset, e.faceCount⟩

namespace Lighting

open Scene (LightType)

variable {d : Draft} {t : Table} {m : Materials} {shapes : List Emitter}
  {distributions : List (List Float32)} {sorted : List Scene.Light}

/-- All types of lights, in the order of tables. -/
def lightTypes : List LightType := [.world, .area, .point, .sun, .spot, .shape]

theorem pairwise_lightTypes : lightTypes.Pairwise fun x y => x.order < y.order := by decide

theorem mem_lightTypes (type : LightType) : type ∈ lightTypes := by
  cases type <;> decide

/-- The lights of one type. -/
def Table.ofType (t : Table) (type : LightType) : List Emitter := t.emitters.filter (·.kind = type)

/-- How many lights of a type there are, as the device is told. Of worlds there is one. -/
def Uniforms.count (u : Uniforms) : LightType → Nat
  | .world => 1
  | .area => u.areaCount
  | .point => u.pointCount
  | .sun => u.sunCount
  | .spot => u.spotCount
  | .shape => u.shapeCount

/-- The table is made of one block for each type, the first of them being the world alone. -/
structure Table.Blocks (t : Table) : Prop where
  blocks : t.emitters = lightTypes.flatMap t.ofType
  counts : ∀ type, (t.ofType type).length = t.uniforms.count type
  lightCount : t.uniforms.lightCount = t.emitters.length ∧ t.uniforms.lightCount =
    1 + (t.uniforms.areaCount + t.uniforms.pointCount + t.uniforms.sunCount + t.uniforms.spotCount +
      t.uniforms.shapeCount)
  world : ∃ w, t.emitters[0]? = some w ∧ t.worldShader = w.shader
  /-- There is no other world. -/
  world_iff : ∀ (i : Nat) e, t.emitters[i]? = some e → (e.kind = .world ↔ i = 0)

/-- A table made of blocks as long as the device is told. -/
theorem Table.blocks_of_counts (hblocks : t.emitters = lightTypes.flatMap t.ofType)
    (hcounts : ∀ type, (t.ofType type).length = t.uniforms.count type)
    (htotal : t.uniforms.lightCount = t.emitters.length) : t.Blocks := by
  obtain ⟨w, hw⟩ := List.length_eq_one_iff.1 (hcounts .world)
  have hemitters : t.emitters =
      w :: [LightType.area, .point, .sun, .spot, .shape].flatMap t.ofType := by
    rw [hblocks, lightTypes, List.flatMap_cons, hw]
    rfl
  have hworld : w.kind = .world := by
    have hmem : w ∈ t.ofType .world := hw ▸ List.mem_singleton_self w
    exact of_decide_eq_true (List.mem_filter.1 hmem).2
  refine ⟨hblocks, hcounts, ⟨htotal, ?_⟩, ⟨w, by rw [hemitters]; rfl, ?_⟩, fun i e he => ?_⟩
  · have hlength := congrArg List.length hblocks
    simp only [lightTypes, List.flatMap_cons, List.flatMap_nil, List.length_append, List.length_nil,
      hcounts, Uniforms.count] at hlength
    omega
  · rw [worldShader, hemitters]
    rfl
  · rw [hemitters] at he
    cases i with
    | zero =>
      cases he
      exact ⟨fun _ => rfl, fun _ => hworld⟩
    | succ i =>
      -- what stands behind the first light is of another type
      obtain ⟨type, htype, hmem⟩ := List.mem_flatMap.1 (List.mem_of_getElem? he)
      have hkind : e.kind = type := of_decide_eq_true (List.mem_filter.1 hmem).2
      refine ⟨fun hw => ?_, nofun⟩
      rw [← hkind, hw] at htype
      exact absurd htype (by decide)

/-- How many instances there are has no part in it. -/
theorem Table.Blocks.setInstanceCount (h : t.Blocks) (n : Nat) :
    ({ t with uniforms.instanceCount := n } : Table).Blocks :=
  blocks_of_counts h.blocks (fun type => (h.counts type).trans (by cases type <;> rfl))
    h.lightCount.1

/-- No light of a scene has a shape. -/
theorem kind_ne_shape {es : List Emitter} (h : List.Forall₂ (Emits m) sorted es) {e : Emitter}
    (he : e ∈ es) : e.kind ≠ .shape := by
  obtain ⟨k, hk⟩ := List.mem_iff_getElem?.1 he
  obtain ⟨l, -, hl⟩ := forall₂_getElem? h.flip hk
  rw [hl.kind]
  cases l.kind <;> nofun

namespace Draft.Finished

/-- The lights that stand behind all others are those of shapes. -/
theorem kind_shape (hfinished : d.Finished t shapes distributions) {e : Emitter} (he : e ∈ shapes) :
    e.kind = .shape := by
  obtain ⟨k, hk⟩ := List.mem_iff_getElem?.1 he
  obtain ⟨l, -, area, rfl⟩ := forall₂_getElem? hfinished.shapes.flip hk
  rfl

/-- No other lights are those of shapes. -/
theorem ofType_shape (hfinished : d.Finished t shapes distributions)
    (hemits : List.Forall₂ (Emits m) sorted d.emitters) : t.ofType .shape = shapes := by
  rw [Table.ofType, hfinished.emitters, List.filter_append]
  have hnone : d.emitters.filter (·.kind = .shape) = [] := List.filter_eq_nil_iff.2 fun e he => by
    rw [decide_eq_true_eq]
    exact kind_ne_shape hemits he
  have hall : shapes.filter (·.kind = .shape) = shapes := List.filter_eq_self.2 fun e he =>
    decide_eq_true (hfinished.kind_shape he)
  rw [hnone, hall, List.nil_append]

/-- The lights of any other type are among those without shapes. -/
theorem length_ofType (hfinished : d.Finished t shapes distributions) {type : LightType}
    (htype : type ≠ .shape) : (t.ofType type).length = d.count type := by
  have hnone : shapes.countP (·.kind = type) = 0 := List.countP_eq_zero.2 fun e he => by
    rw [decide_eq_true_eq, hfinished.kind_shape he]
    exact htype.symm
  rw [Table.ofType, ← List.countP_eq_length_filter, hfinished.emitters, List.countP_append, hnone]
  rfl

/-- Finishing sorted lights, of which one is the world, gives a table that is made of blocks. -/
theorem blocks (hfinished : d.Finished t shapes distributions)
    (hemits : List.Forall₂ (Emits m) sorted d.emitters)
    (hsorted : sorted.Pairwise fun a b => precedes a b = true)
    (hworld : (sorted.filter (·.isWorld)).length = 1) : t.Blocks := by
  have hkinds : sorted.map (·.kind.type) = d.emitters.map (·.kind) :=
    map_eq_map_of_forall₂ (hemits.imp fun _ _ he => he.kind.symm)
  have hpairwise : t.emitters.Pairwise fun x y => x.kind.order ≤ y.kind.order := by
    rw [hfinished.emitters]
    refine List.pairwise_append.2 ⟨?_, ?_, fun x _ y hy => ?_⟩
    · have htypes : (d.emitters.map (·.kind)).Pairwise fun x y => x.order ≤ y.order := by
        rw [← hkinds, List.pairwise_map]
        refine hsorted.imp fun {a b} hab => ?_
        rcases precedes_iff.1 hab with hlt | ⟨heq, -⟩
        · exact Nat.le_of_lt hlt
        · exact Nat.le_of_eq (congrArg LightType.order heq)
      rwa [List.pairwise_map] at htypes
    · refine List.pairwise_of_forall_mem_list fun x hx y hy => Nat.le_of_eq ?_
      rw [hfinished.kind_shape hx, hfinished.kind_shape hy]
    · rw [hfinished.kind_shape hy]
      cases x.kind <;> decide
  refine Table.blocks_of_counts
    (eq_flatMap_filter order_injective pairwise_lightTypes mem_lightTypes hpairwise)
    (fun type => ?_) (by rw [hfinished.uniforms])
  rw [hfinished.uniforms]
  cases type with
  | world =>
    have hcount : (d.emitters.map (·.kind)).countP (· = .world) = 1 := by
      rw [← hkinds, List.countP_map, List.countP_eq_length_filter]
      exact hworld
    rw [List.countP_map] at hcount
    exact (hfinished.length_ofType (by decide)).trans hcount
  | area => exact hfinished.length_ofType (by decide)
  | point => exact hfinished.length_ofType (by decide)
  | sun => exact hfinished.length_ofType (by decide)
  | spot => exact hfinished.length_ofType (by decide)
  | shape =>
    rw [hfinished.ofType_shape hemits]
    exact hfinished.shapes.length_eq.symm

/-- The ranges of the instances lie side by side, and the distributions fill them. -/
theorem tiles (hfinished : d.Finished t shapes distributions) (hordered : d.Ordered) :
    Arena.Tiles 0 (shapes.map Emitter.range) t.faces.length := by
  have hranges : d.shapeLights.map (·.slot.range) = shapes.map Emitter.range := by
    refine map_eq_map_of_forall₂ (hfinished.shapes.imp fun l e he => ?_)
    obtain ⟨area, rfl⟩ := he
    rfl
  have hlengths : d.shapeLights.map (·.slot.faceCount) = distributions.map List.length :=
    map_eq_map_of_forall₂ (hfinished.lengths.imp fun _ _ hb => hb.symm)
  have htotal : t.faces.length = d.faceTotal := by
    rw [hfinished.faces, List.length_flatten, ← hlengths, ← hordered.ranges.add_sum_length,
      Nat.zero_add, List.map_map]
    rfl
  rw [← hranges, htotal]
  exact hordered.ranges

end Draft.Finished

end Lighting

end Candela
