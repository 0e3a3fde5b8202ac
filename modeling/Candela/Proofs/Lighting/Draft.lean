import Candela.Lighting.Table
import Candela.Proofs.Arena
import Candela.Proofs.Material
import Candela.Proofs.Result

/-!
# From lights to their table

The lights without shapes are sorted, and each becomes an emitter with the index of its compiled
material (`Emits`, `emits_of_emittersOf`). An instance that radiates light is told its index and the
range of its distribution before the table exists. That these come true is an invariant of the
lights so far, `Draft.Ordered`: the instances stand behind the lights without shapes, each at the
index that it has been told, and the ranges lie side by side. Adding an instance keeps it
(`Draft.Ordered.addShape`). The finished table has the instances in their order, and their
distributions fill the ranges (`Draft.exists_finished`).
-/

namespace Candela.Lighting

variable {d d' : Draft} {slot : Slot} {m m' : Materials} {g : Scene.Geometry}
  {emissive : Array Bool}

/-- The range of a distribution. -/
def Slot.range (s : Slot) : Arena.Range := ⟨s.faceOffset, s.faceCount⟩

/-! ## Lights without shapes -/

@[simp] theorem kind_ofLight (l : Scene.Light) (shader : Nat) :
    (Emitter.ofLight l shader).kind = l.kind.type := by
  rw [Emitter.ofLight]
  cases l.kind <;> rfl

@[simp] theorem shader_ofLight (l : Scene.Light) (shader : Nat) :
    (Emitter.ofLight l shader).shader = shader := by
  rw [Emitter.ofLight]
  cases l.kind <;> rfl

/-- An emitter is that of a light, with the index of the light's material. -/
structure Emits (m : Materials) (l : Scene.Light) (e : Emitter) : Prop where
  eq : e = .ofLight l e.shader
  material : (m.compiled .light)[e.shader]? = some l.material

theorem Emits.kind {l : Scene.Light} {e : Emitter} (h : Emits m l e) : e.kind = l.kind.type := by
  rw [h.eq, kind_ofLight]

/-- Every light becomes an emitter, with its material in what has been compiled in the end. -/
theorem emits_of_emittersOf {lights : List Scene.Light} {es : List Emitter}
    (h : emittersOf m lights = .ok (es, m')) :
    m.Extends m' ∧ List.Forall₂ (Emits m') lights es := by
  induction lights generalizing m es with
  | nil =>
    cases h
    exact ⟨.refl _, .nil⟩
  | cons l rest ih =>
    rw [emittersOf] at h
    cases hindex : m.index .light l.material with
    | mk answer m₁ =>
      rw [hindex] at h
      cases answer with
      | error e => cases h
      | ok shader =>
        obtain ⟨⟨es', m₂⟩, hrest, hpure⟩ := bind_eq_ok.1 h
        cases pure_eq_ok.1 hpure
        obtain ⟨hextends, hemits⟩ := ih hrest
        refine ⟨(Materials.index_extends hindex).trans hextends, .cons ⟨?_, ?_⟩ hemits⟩
        · rw [shader_ofLight]
        · rw [shader_ofLight]
          exact hextends.getElem? (Materials.index_ok hindex)

/-- What the lights of a scene come to: there is one world, and all of them have been sorted. -/
theorem Draft.of_ofLights {lights : List Scene.Light} (h : Draft.ofLights lights m = .ok (d, m')) :
    (lights.filter (·.isWorld)).length = 1 ∧
      emittersOf m (lights.mergeSort precedes) = .ok (d.emitters, m') ∧ d.shapeLights = [] := by
  rw [ofLights] at h
  split at h
  next => cases h
  next hworld =>
    obtain ⟨⟨emitters, m₁⟩, hemitters, hpure⟩ := bind_eq_ok.1 h
    cases pure_eq_ok.1 hpure
    exact ⟨hworld, hemitters, rfl⟩
  next => cases h

/-! ## Instances that radiate light -/

/-- Adding an instance puts it behind all others. -/
theorem Draft.of_addShape {entity shape faceCount : Nat} {transform : Mat4 Float32}
    (h : d.addShape entity shape faceCount transform = .ok (slot, d')) :
    slot = ⟨d.size, d.faceTotal, faceCount⟩ ∧ d.faceTotal + faceCount < wordValues ∧
      d' = { d with shapeLights := d.shapeLights ++ [{ entity, shape, transform, slot }] } := by
  obtain ⟨_, hword, hpure⟩ := bind_eq_ok.1 h
  cases pure_eq_ok.1 hpure
  exact ⟨rfl, (inWord_eq_ok.1 hword).1, rfl⟩

/-- Instances stand where they have been told, and their distributions lie side by side. -/
structure Draft.Ordered (d : Draft) : Prop where
  light : ∀ (j : Nat) l, d.shapeLights[j]? = some l → l.slot.light = d.emitters.length + j
  ranges : Arena.Tiles 0 (d.shapeLights.map (·.slot.range)) d.faceTotal

/-- Without instances nothing can be out of place. -/
theorem Draft.ordered_of_no_shapes (h : d.shapeLights = []) : d.Ordered := by
  obtain ⟨emitters, shapeLights⟩ := d
  obtain rfl : shapeLights = [] := h
  refine ⟨fun j l hl => ?_, rfl⟩
  cases hl

/-- The distributions are as long as those that there were and the new one. -/
theorem Draft.faceTotal_concat (d : Draft) (l : ShapeLight) :
    ({ d with shapeLights := d.shapeLights ++ [l] } : Draft).faceTotal =
      d.faceTotal + l.slot.faceCount := by
  simp [faceTotal]

/-- A step: adding an instance. -/
theorem Draft.Ordered.addShape (hd : d.Ordered) {entity shape faceCount : Nat}
    {transform : Mat4 Float32}
    (h : d.addShape entity shape faceCount transform = .ok (slot, d')) : d'.Ordered := by
  obtain ⟨rfl, -, rfl⟩ := Draft.of_addShape h
  refine ⟨fun j l hl => ?_, ?_⟩
  · rcases Nat.lt_or_ge j d.shapeLights.length with hlt | hge
    · rw [List.getElem?_append_left hlt] at hl
      exact hd.light j l hl
    · rw [List.getElem?_append_right hge, List.getElem?_singleton] at hl
      split at hl
      next hj =>
        cases hl
        show d.emitters.length + d.shapeLights.length = d.emitters.length + j
        omega
      next => cases hl
  · rw [Draft.faceTotal_concat, List.map_append]
    exact hd.ranges.concat faceCount

/-! ## The table -/

theorem length_runningSums (total : Float32) (areas : List (Option Float32)) :
    (runningSums total areas).length = areas.length := by
  induction areas generalizing total with
  | nil => rfl
  | cons area rest ih => cases area <;> exact congrArg (· + 1) (ih _)

theorem length_distribution (areas : List (Option Float32)) :
    (distribution areas).2.length = areas.length := by
  rw [distribution, ← length_runningSums 0 areas]
  dsimp only
  split
  next => rw [List.length_map]
  next => rfl

theorem length_facesFrom {first count : Nat} {faces : List Mesh.Face}
    (h : facesFrom g first count = .ok faces) : faces.length = count := by
  rw [facesFrom] at h
  split at h
  next hle =>
    cases h
    rw [Array.length_toList, Array.size_extract]
    omega
  next => cases h

/-- A distribution is as long as it has been told. -/
theorem ShapeLight.length_distribution {l : ShapeLight} {r : Float32 × List Float32}
    (h : l.distribution g emissive = .ok r) : r.2.length = l.slot.faceCount := by
  rw [ShapeLight.distribution] at h
  split at h
  next => cases h
  next s _ =>
    obtain ⟨faces, hfaces, h⟩ := bind_eq_ok.1 h
    obtain ⟨areas, hareas, hpure⟩ := bind_eq_ok.1 h
    cases pure_eq_ok.1 hpure
    rw [Lighting.length_distribution, ← (mapM_eq_ok.1 hareas).length_eq, length_facesFrom hfaces]

/-- What finishing the lights comes to: the emitters of the instances, and their distributions. -/
structure Draft.Finished (d : Draft) (t : Table) (shapes : List Emitter)
    (distributions : List (List Float32)) : Prop where
  emitters : t.emitters = d.emitters ++ shapes
  shapes : List.Forall₂ (fun l e => ∃ area, e = ShapeLight.emitter l area) d.shapeLights shapes
  faces : t.faces = distributions.flatten
  lengths : List.Forall₂ (fun l (b : List Float32) => b.length = l.slot.faceCount) d.shapeLights
    distributions
  uniforms : t.uniforms = {
    lightCount := t.emitters.length
    areaCount := d.count .area
    pointCount := d.count .point
    sunCount := d.count .sun
    spotCount := d.count .spot
    shapeCount := d.shapeLights.length }

theorem Draft.exists_finished {t : Table} (h : d.finish g emissive = .ok t) :
    ∃ shapes distributions, d.Finished t shapes distributions := by
  obtain ⟨finished, hfinished, hpure⟩ := bind_eq_ok.1 h
  cases pure_eq_ok.1 hpure
  have hall : List.Forall₂ (fun l (r : ShapeLight × Float32 × List Float32) =>
      r.1 = l ∧ l.distribution g emissive = .ok r.2) d.shapeLights finished := by
    refine (mapM_eq_ok.1 hfinished).imp fun l r hr => ?_
    obtain ⟨_, hdistribution, hpure⟩ := bind_eq_ok.1 hr
    cases pure_eq_ok.1 hpure
    exact ⟨rfl, hdistribution⟩
  refine ⟨finished.map fun r => r.1.emitter r.2.1, finished.map (·.2.2), rfl, ?_,
    List.flatMap_def .., ?_, rfl⟩
  · rw [List.forall₂_map_right_iff]
    exact hall.imp fun l r hr => ⟨r.2.1, congrArg (ShapeLight.emitter · r.2.1) hr.1⟩
  · rw [List.forall₂_map_right_iff]
    exact hall.imp fun l r hr => ShapeLight.length_distribution hr.2

end Candela.Lighting
