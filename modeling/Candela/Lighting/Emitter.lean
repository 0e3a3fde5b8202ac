import Candela.Geometry.Vector
import Candela.Scene.Basic
import Candela.Single

/-!
# Emitters

What the device knows of a light: one record for all kinds, the fields that a kind does not need
being zero. Powers are turned into radiances here, angles into cosines, and a light's transform into
the vectors that span it.
-/

namespace Candela

/-- A light as the device knows it. -/
structure Emitter where
  kind : Scene.LightType
  /-- The index of the light's compiled material. -/
  shader : Nat := 0
  castsShadows : Bool := false
  usesMis : Bool := false
  /-- The entity of a light with a shape. -/
  entity : Nat := 0
  position : Vec3 Float32 := .zero
  radius : Float32 := 0
  direction : Vec3 Float32 := .zero
  spotSize : Float32 := 0
  color : Vec3 Float32 := .zero
  spotBlend : Float32 := 0
  /-- Half of the first side of a rectangle. -/
  axisU : Vec3 Float32 := .zero
  cosAngle : Float32 := 0
  /-- Half of the second side of a rectangle. -/
  axisV : Vec3 Float32 := .zero
  /-- The area of a rectangle, or of the triangles that radiate. -/
  area : Float32 := 0
  /-- Where the distribution over a shape's triangles begins. -/
  faceOffset : Nat := 0
  /-- How many triangles a shape has. -/
  faceCount : Nat := 0
  circular : Bool := false

namespace Emitter

/-- The bits of a light's properties. -/
def flags (e : Emitter) : Nat := (if e.castsShadows then 1 else 0) + (if e.usesMis then 2 else 0)

/-- A direction of length one, or no direction. -/
def unit (v : Vec3 Float32) : Vec3 Float32 := v.normalizeOr .zero

/-- The fields of an area light. An ellipse radiates as much as the rectangle around it, from less
area. -/
def withArea (e : Emitter) (l : Scene.AreaLight) : Emitter :=
  let axisU := l.transform.x.xyz.scale (l.width * 0.5)
  let axisV := l.transform.y.xyz.scale (l.height * 0.5)
  let normalization := if l.circular then 4 / Single.pi else 1
  { e with
    position := l.transform.w.xyz
    direction := unit (l.transform.z.xyz.map (-·))
    color := (l.color.scale l.power).scale normalization
    axisU, axisV
    area := 4 * (axisU.cross axisV).length
    circular := l.circular }

/-- The radiance of a light that shines all around. -/
def perSolidAngle (color : Vec3 Float32) (power : Float32) : Vec3 Float32 :=
  (color.scale power).map (· / (4 * Single.pi))

/-- The fields of a point light. -/
def withPoint (e : Emitter) (l : Scene.PointLight) : Emitter :=
  { e with position := l.position, radius := l.radius, color := perSolidAngle l.color l.power }

/-- The fields of a spot light. -/
def withSpot (e : Emitter) (l : Scene.SpotLight) : Emitter :=
  let cosAngle := (l.angle * 0.5).cos
  { e with
    position := l.position
    radius := l.radius
    direction := unit l.direction
    color := perSolidAngle l.color l.power
    spotSize := cosAngle
    spotBlend := (1 - cosAngle) * l.blend }

/-- The fields of a sun. -/
def withSun (e : Emitter) (l : Scene.SunLight) : Emitter :=
  { e with
    direction := unit l.direction
    cosAngle := (l.angle * 0.5).cos
    color := l.color.scale l.power }

/-- A light with the given compiled material. Only the world can be sampled in two ways at once. -/
def ofLight (l : Scene.Light) (shader : Nat) : Emitter :=
  let e : Emitter := {
    kind := l.kind.type, shader
    castsShadows := l.castsShadows
    usesMis := l.usesMis && l.isWorld }
  match l.kind with
  | .world => e
  | .area a => e.withArea a
  | .point p => e.withPoint p
  | .spot s => e.withSpot s
  | .sun s => e.withSun s

end Emitter

end Candela
