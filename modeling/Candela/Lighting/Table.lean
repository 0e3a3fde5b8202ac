import Candela.Lighting.Emitter
import Candela.Scene.Geometry

/-!
# Tables of lights

All lights share one table, the world first, then by their kinds and names, and after them the
instances that radiate light. Such an instance is sampled through a distribution over its triangles:
the area of all radiating triangles up to each one, over the area of all of them. The distributions
of all instances lie in one table, one after the other.
-/

namespace Candela.Lighting

open Scene (LightType Geometry)

/-- Where an instance that radiates light is found. -/
structure Slot where
  /-- The index in the table of lights. -/
  light : Nat
  /-- Where its distribution begins. -/
  faceOffset : Nat
  /-- How long its distribution is. -/
  faceCount : Nat
  deriving DecidableEq

/-- An instance that radiates light. -/
structure ShapeLight where
  entity : Nat
  shape : Nat
  transform : Mat4 Float32
  slot : Slot

/-- The lights before the distributions are known. -/
structure Draft where
  /-- The lights without shapes, in the order of the table. -/
  emitters : List Emitter
  /-- The instances that radiate light. -/
  shapeLights : List ShapeLight

/-- Whether a light comes before another one: by its kind, and then by its name. -/
def precedes (a b : Scene.Light) : Bool :=
  let x := a.kind.type.order
  let y := b.kind.type.order
  x < y || (x == y && a.name ≤ b.name)

/-- The emitters of some lights. -/
def emittersOf (m : Materials) : List Scene.Light → Except Error (List Emitter × Materials)
  | [] => .ok ([], m)
  | l :: rest =>
    match m.index .light l.material with
    | (.error e, _) => .error e
    | (.ok shader, m) => do
      let (es, m) ← emittersOf m rest
      return (.ofLight l shader :: es, m)

/-- The lights of a scene, of which exactly one must be the world. -/
def Draft.ofLights (lights : List Scene.Light) (m : Materials) : Except Error (Draft × Materials) :=
  match (lights.filter (·.isWorld)).length with
  | 0 => .error .missingWorldLight
  | 1 => do
    let (emitters, m) ← emittersOf m (lights.mergeSort precedes)
    return (⟨emitters, []⟩, m)
  | n => .error (.multipleWorldLights n)

/-- How many lights there are. -/
def Draft.size (d : Draft) : Nat := d.emitters.length + d.shapeLights.length

/-- How long the distributions are together. -/
def Draft.faceTotal (d : Draft) : Nat := (d.shapeLights.map (·.slot.faceCount)).foldl (· + ·) 0

/-- Adds an instance with the given number of triangles. The length of all distributions is a
word. -/
def Draft.addShape (d : Draft) (entity shape faceCount : Nat) (transform : Mat4 Float32) :
    Except Error (Slot × Draft) := do
  let slot := ⟨d.size, d.faceTotal, faceCount⟩
  let _ ← inWord (d.faceTotal + faceCount)
  return (slot, { d with shapeLights := d.shapeLights ++ [{ entity, shape, transform, slot }] })

/-! ## Distributions -/

/-- The sums of areas up to each one, after a sum so far; what has no area is left out. -/
def runningSums (total : Float32) : List (Option Float32) → List Float32
  | [] => []
  | none :: rest => total :: runningSums total rest
  | some a :: rest => (total + a) :: runningSums (total + a) rest

/-- The sum of all areas, and the distribution over them. -/
def distribution (areas : List (Option Float32)) : Float32 × List Float32 :=
  let sums := runningSums 0 areas
  let total := sums.getLastD 0
  (total, if 0 < total then sums.map (· / total) else sums)

/-- The area of a triangle under a linear map. -/
def worldArea (linear : Mat3 Float32) (t : Triangle) : Float32 :=
  let e1 := linear.apply (t.b - t.a)
  let e2 := linear.apply (t.c - t.a)
  0.5 * (e1.cross e2).length

/-- The area of a triangle of a scene, if its surface radiates light. -/
def radiatingArea (g : Geometry) (emissive : Array Bool) (linear : Mat3 Float32) (f : Mesh.Face) :
    Except Error (Option Float32) :=
  if emissive.getD f.material.toNat false then
    match Scene.trianglePoints? g.vertices f with
    | some t => .ok (some (worldArea linear t))
    | none => .error .outOfBounds
  else .ok none

/-- As many triangles as asked for, from an index on. -/
def facesFrom (g : Geometry) (first count : Nat) : Except Error (List Mesh.Face) :=
  if count ≤ g.faces.size - first then .ok (g.faces.extract first (first + count)).toList
  else .error .outOfBounds

/-- The radiating area of an instance, and the distribution over its triangles. -/
def ShapeLight.distribution (l : ShapeLight) (g : Geometry) (emissive : Array Bool) :
    Except Error (Float32 × List Float32) := do
  match g.shapes[l.shape]? with
  | none => throw .outOfBounds
  | some s =>
    let faces ← facesFrom g s.info.faces.offset l.slot.faceCount
    let areas ← faces.mapM (radiatingArea g emissive l.transform.linear)
    return Lighting.distribution areas

/-- The light of an instance. -/
def ShapeLight.emitter (l : ShapeLight) (area : Float32) : Emitter where
  kind := .shape
  castsShadows := true
  entity := l.entity
  area
  faceOffset := l.slot.faceOffset
  faceCount := l.slot.faceCount

/-- What the device is told of how much there is. Every light but the world is counted with those of
its type. -/
structure Uniforms where
  lightCount : Nat
  areaCount : Nat
  pointCount : Nat
  sunCount : Nat
  spotCount : Nat
  shapeCount : Nat
  /-- How many entities there are, once they are known. -/
  instanceCount : Nat := 0

/-- The finished lights. -/
structure Table where
  emitters : List Emitter
  /-- The distributions over the triangles of instances, one after the other. -/
  faces : List Float32
  uniforms : Uniforms

/-- How many lights without shapes are of a type. -/
def Draft.count (d : Draft) (type : LightType) : Nat := d.emitters.countP (·.kind = type)

/-- The lights with their distributions; `emissive` says which surfaces radiate light. -/
def Draft.finish (d : Draft) (g : Geometry) (emissive : Array Bool) : Except Error Table := do
  let shapes ← d.shapeLights.mapM fun l => return (l, ← l.distribution g emissive)
  let emitters := d.emitters ++ shapes.map fun (l, area, _) => l.emitter area
  return {
    emitters
    faces := shapes.flatMap fun (_, _, faces) => faces
    uniforms := {
      lightCount := emitters.length
      areaCount := d.count .area
      pointCount := d.count .point
      sunCount := d.count .sun
      spotCount := d.count .spot
      shapeCount := d.shapeLights.length } }

/-- The compiled material of the first light, which is the world. -/
def Table.worldShader (t : Table) : Nat := (t.emitters.head?.map (·.shader)).getD 0

end Candela.Lighting
