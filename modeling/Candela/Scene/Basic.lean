import Candela.Geometry.Matrix
import Candela.Graph.Basic

/-!
# Scenes

A scene names its parts: materials, shapes that are made of them, entities that place shapes,
lights, and at most one viewpoint. Parts refer to each other by name; nothing here says that a name
exists, which is found out when the scene is assembled.
-/

namespace Candela

namespace Scene

/-- A mesh file and its palette: the material indices of its triangles count the names in it. -/
structure Shape where
  name : String
  path : String
  palette : List String

/-- The kinds of rays that see an entity. -/
structure Visibility where
  camera : Bool := true
  diffuse : Bool := true
  glossy : Bool := true
  transmission : Bool := true
  volume : Bool := true
  shadow : Bool := true
  deriving DecidableEq

/-- The bits of the kinds of rays. -/
def Visibility.mask (v : Visibility) : UInt32 :=
  let bit (seen : Bool) (value : UInt32) : UInt32 := if seen then value else 0
  bit v.camera 1 ||| bit v.transmission 4 ||| bit v.shadow 8 ||| bit v.volume 16 |||
    bit v.diffuse 32 ||| bit v.glossy 64

/-- A shape at a place. -/
structure Entity where
  name : String
  shape : String
  visibility : Visibility
  transform : Mat4 Float32

/-- A rectangle or an ellipse in the plane of the first two axes of its transform, which radiates
against the third one. -/
structure AreaLight where
  transform : Mat4 Float32
  width : Float32
  height : Float32
  power : Float32
  color : Vec3 Float32
  circular : Bool

/-- A ball that radiates all around. -/
structure PointLight where
  position : Vec3 Float32
  power : Float32
  color : Vec3 Float32
  radius : Float32

/-- A ball that radiates into a cone. -/
structure SpotLight where
  position : Vec3 Float32
  direction : Vec3 Float32
  power : Float32
  color : Vec3 Float32
  radius : Float32
  /-- The full angle of the cone, in radians. -/
  angle : Float32
  /-- How much of the cone fades out. -/
  blend : Float32

/-- A light from far away. -/
structure SunLight where
  direction : Vec3 Float32
  power : Float32
  color : Vec3 Float32
  /-- The angle under which it is seen, in radians. -/
  angle : Float32

/-- What a light is, apart from its material. -/
inductive LightKind where
  | world
  | area (light : AreaLight)
  | point (light : PointLight)
  | sun (light : SunLight)
  | spot (light : SpotLight)

/-- The types of lights: their kinds without parameters, and the lights that emissive entities are.
Tables of lights are ordered by them as they are listed here. -/
inductive LightType where
  | world
  | area
  | point
  | sun
  | spot
  | shape
  deriving DecidableEq

/-- The place in the order of tables. -/
def LightType.order : LightType → Nat
  | world => 0
  | area => 1
  | point => 2
  | sun => 3
  | spot => 4
  | shape => 5

/-- The type of a kind of light. -/
def LightKind.type : LightKind → LightType
  | world => .world
  | area _ => .area
  | point _ => .point
  | sun _ => .sun
  | spot _ => .spot

/-- A light. -/
structure Light where
  name : String
  material : String
  castsShadows : Bool
  usesMis : Bool
  kind : LightKind

/-- Whether a light is the world around the scene. -/
def Light.isWorld (l : Light) : Bool := l.kind.type = .world

/-- Where the scene is seen from. -/
structure Viewpoint where
  /-- From the viewpoint's space to the world. -/
  transform : Mat4 Float32 := .identity
  nearClip : Float32 := 0.1
  farClip : Float32 := 100
  focalLength : Option Float32 := none
  /-- Width and height of the film in millimetres. -/
  film : Float32 × Float32 := (36, 24)
  shift : Float32 × Float32 := (0, 0)

end Scene

/-- A scene. -/
structure Scene where
  materials : Keyed Graph
  shapes : List Scene.Shape
  entities : List Scene.Entity
  lights : List Scene.Light
  viewpoint : Option Scene.Viewpoint

end Candela
