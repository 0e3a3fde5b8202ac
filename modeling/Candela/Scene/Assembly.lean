import Candela.Bvh.Trace
import Candela.Camera
import Candela.Lighting.Table

/-!
# Assembling scenes

A scene is put together in a fixed order: the entities register their shapes and these their
materials, the lights compile theirs, the meshes are loaded, every entity becomes an instance, and
the lights get their distributions. Each stage can fail, and nothing is kept of a scene that does.
-/

namespace Candela.Scene

/-- An entity as the device knows it. -/
structure Placement where
  toWorld : Mat4 Float32
  toObject : Mat4 Float32
  /-- The inverse of the linear part, rows and columns exchanged. -/
  normals : Mat3 Float32
  /-- The least corner of the shape's box. -/
  lower : Vec3 Float32
  /-- One over the lengths of the sides of the shape's box. -/
  inverseExtent : Vec3 Float32
  /-- The root of the shape's packed hierarchy. -/
  root : Nat
  /-- Where the shape's triangles begin. -/
  faceOffset : Nat
  visibility : Visibility
  /-- Where the entity is found among the lights, if it radiates light. -/
  light : Option Lighting.Slot

/-- An assembled scene. -/
structure Assembly where
  materials : Materials
  geometry : Geometry
  /-- The entities, for the top level. -/
  instances : List Bvh.Instance
  /-- The entities, for the device. -/
  placements : List Placement
  packed : Bvh.Packed
  lights : Lighting.Table
  camera : Camera

/-- The instance of an entity with a loaded shape. -/
def instanceOf (e : Entity) (shape : Nat) (s : LoadedShape) : Bvh.Instance :=
  ⟨shape, s.box.transform e.transform, e.transform.inverse⟩

/-- Whether the instances of a shape radiate light. -/
def LoadedShape.radiates (s : LoadedShape) : Bool := s.info.hasEmission && !s.info.faces.isEmpty

/-- Adds an entity to the lights if its shape radiates light. -/
def lightOf (index : Nat) (e : Entity) (shape : Nat) (s : LoadedShape) (lights : Lighting.Draft) :
    Except Error (Option Lighting.Slot × Lighting.Draft) :=
  if s.radiates then
    (lights.addShape index shape s.info.faces.length e.transform).map fun (slot, lights) =>
      (some slot, lights)
  else .ok (none, lights)

/-- An entity together with its shape. -/
structure Placed where
  entity : Entity
  shape : Nat
  loaded : LoadedShape

/-- The entities with their shapes. -/
def placedOf (g : Geometry) (entities : List Entity) (shapes : List Nat) : List Placed :=
  (entities.zip shapes).filterMap fun (e, shape) => do
    return ⟨e, shape, ← g.shapes[shape]?⟩

/-- The places among the lights of some entities, the first of them having the given index. -/
def lightsOf (index : Nat) (lights : Lighting.Draft) :
    List Placed → Except Error (List (Option Lighting.Slot) × Lighting.Draft)
  | [] => .ok ([], lights)
  | p :: rest => do
    let (slot, lights) ← lightOf index p.entity p.shape p.loaded lights
    let (slots, lights) ← lightsOf (index + 1) lights rest
    return (slot :: slots, lights)

/-- An entity for the device, the roots of all shapes given. -/
def Placed.placement (p : Placed) (roots : Array Nat) (light : Option Lighting.Slot) :
    Placement where
  toWorld := p.entity.transform
  toObject := p.entity.transform.inverse
  normals := p.entity.transform.linear.inverse.transpose
  lower := p.loaded.box.lower
  inverseExtent := p.loaded.box.inverseExtent
  root := roots.getD p.shape 0
  faceOffset := p.loaded.info.faces.offset
  visibility := p.entity.visibility
  light

/-- Assembles a scene whose meshes come from a source. -/
def assemble (scene : Scene) (source : Mesh.Source) : Except Error Assembly := do
  let (shapeIds, table, materials) ←
    shapesOf source (.ofShapes scene.shapes) (.ofGraphs scene.materials) scene.entities
  let (draft, materials) ← Lighting.Draft.ofLights scene.lights materials
  let geometry ← table.load source
  let placed := placedOf geometry scene.entities shapeIds
  let instances := placed.map fun p => instanceOf p.entity p.shape p.loaded
  let packed := Bvh.pack (geometry.shapes.toList.map (·.hierarchy)) instances
  let (slots, draft) ← lightsOf 0 draft placed
  let lights ← draft.finish geometry materials.emissiveSurfaces.toArray
  let placements := placed.zipWith (fun p slot => p.placement packed.roots slot) slots
  return {
    materials, geometry, instances, placements, packed
    lights := { lights with uniforms.instanceCount := placements.length }
    camera := (scene.viewpoint.map Camera.ofViewpoint).getD {} }

/-- The closest hit of a ray with an assembled scene. -/
def Assembly.hit? (a : Assembly) (r : Bvh.Ray) : Option Bvh.Hit :=
  a.packed.hit? r a.instances.toArray fun shape item => do
    a.geometry.triangle? ((← a.geometry.shapes[shape]?).info.faces.offset + item)

end Candela.Scene
