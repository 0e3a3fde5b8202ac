import Candela.Error
import Candela.Json.Record
import Candela.Scene.Basic
import Candela.Text.Names
import Candela.Text.Path

/-!
# Scene descriptions

The document that an exporter writes, and the scene that it describes. A description leaves more
open than a scene: shapes may have no palette, lights have parameters that are not read before their
type is known, matrices are given row by row, and older exporters put the world's graph beside the
lights. `Description.toScene` settles all this; what it reports first is the first defect of the
shapes, and then of the lights, in the order of their names.
-/

namespace Candela.Scene

/-! ## The document -/

/-- A described shape. -/
structure ShapeEntry where
  type : String
  path : String
  palette : List String

/-- A described entity. -/
structure EntityEntry where
  shape : String
  visibility : Visibility
  transform : Mat4 Float32

/-- A described light, its parameters not looked at. -/
structure LightEntry where
  type : String
  material : String
  castsShadows : Bool
  usesMis : Bool
  parameters : Json

/-- A described viewpoint. -/
structure ViewpointEntry where
  nearClip : Option Float32
  farClip : Option Float32
  film : Option (Float32 × Float32)
  focalLength : Option Float32
  transform : Option (Mat4 Float32)

/-- A description. -/
structure Description where
  materials : Keyed Graph
  world : Option Graph
  lights : Keyed LightEntry
  shapes : Keyed ShapeEntry
  entities : Keyed EntityEntry
  viewpoint : Option ViewpointEntry

/-- A matrix, given as its sixteen components row by row. -/
def rowMajor? (j : Json) : Option (Mat4 Float32) := j.toMat4?.map Mat4.transpose

/-- The fields of a visibility. -/
def Visibility.fields : List (Json.Field Visibility) :=
  [.flag "camera" (·.camera) fun v s => { s with camera := v },
    .flag "diffuse" (·.diffuse) fun v s => { s with diffuse := v },
    .flag "glossy" (·.glossy) fun v s => { s with glossy := v },
    .flag "transmission" (·.transmission) fun v s => { s with transmission := v },
    .flag "volume" (·.volume) fun v s => { s with volume := v },
    .flag "shadow" (·.shadow) fun v s => { s with shadow := v }]

/-- Reads a shape. -/
def ShapeEntry.ofJson? (j : Json) : Option ShapeEntry := do
  let f ← j.fields? ["type", "filepath", "materials"]
  return {
    type := ← f.defaulted "type" Json.toString? "ply"
    path := ← f.required "filepath" Json.toString?
    palette := ← f.defaulted "materials" (Json.toList? Json.toString?) [] }

/-- Reads an entity. -/
def EntityEntry.ofJson? (j : Json) : Option EntityEntry := do
  let f ← j.fields? ["shape", "visibility", "matrix"]
  return {
    shape := ← f.required "shape" Json.toString?
    visibility := ← f.defaulted "visibility" (Json.readRecord Visibility.fields {}) {}
    transform := ← f.required "matrix" rowMajor? }

/-- Reads a light. -/
def LightEntry.ofJson? (j : Json) : Option LightEntry := do
  let f ← j.fields? ["type", "material", "cast_shadows", "use_mis", "parameters"]
  return {
    type := ← f.required "type" Json.toString?
    material := ← f.required "material" Json.toString?
    castsShadows := ← f.defaulted "cast_shadows" Json.toBool? true
    usesMis := ← f.defaulted "use_mis" Json.toBool? false
    parameters := ← f.defaulted "parameters" Json.settled? .null }

/-- Reads a film. -/
def filmOfJson? (j : Json) : Option (Float32 × Float32) := do
  let f ← j.fields? ["width", "height"]
  return (← f.required "width" Json.toSingle?, ← f.defaulted "height" Json.toSingle? 0)

/-- Reads a viewpoint. -/
def ViewpointEntry.ofJson? (j : Json) : Option ViewpointEntry := do
  let f ← j.fields? ["near_clip", "far_clip", "film", "focal_length", "transform"]
  return {
    nearClip := ← f.defaulted "near_clip" (Json.toNullable? Json.toSingle?) none
    farClip := ← f.defaulted "far_clip" (Json.toNullable? Json.toSingle?) none
    film := ← f.defaulted "film" (Json.toNullable? filmOfJson?) none
    focalLength := ← f.defaulted "focal_length" (Json.toNullable? Json.toSingle?) none
    transform := ← f.defaulted "transform" (Json.toNullable? rowMajor?) none }

/-- Reads a description. -/
def Description.ofJson? (j : Json) : Option Description := do
  let f ← j.fields? ["materials", "world", "lights", "shapes", "entities", "camera"]
  return {
    materials := ← f.defaulted "materials" (Json.toKeyed? Graph.ofJson?) .empty
    world := ← f.defaulted "world" (Json.toNullable? Graph.ofJson?) none
    lights := ← f.defaulted "lights" (Json.toKeyed? LightEntry.ofJson?) .empty
    shapes := ← f.defaulted "shapes" (Json.toKeyed? ShapeEntry.ofJson?) .empty
    entities := ← f.defaulted "entities" (Json.toKeyed? EntityEntry.ofJson?) .empty
    viewpoint := ← f.defaulted "camera" (Json.toNullable? ViewpointEntry.ofJson?) none }

/-! ## Parameters of lights -/

/-- Reads an area light. -/
def AreaLight.ofJson? (j : Json) : Option AreaLight := do
  let f ← j.fields? ["transform", "size", "power", "color", "is_circular"]
  let transform ← f.required "transform" rowMajor?
  let (width, height) ← f.defaulted "size" Json.toPair? (1, 1)
  return {
    transform, width, height
    power := ← f.required "power" Json.toSingle?
    color := ← f.required "color" Json.toVec3?
    circular := ← f.defaulted "is_circular" Json.toBool? false }

/-- Reads a point light. -/
def PointLight.ofJson? (j : Json) : Option PointLight := do
  let f ← j.fields? ["location", "power", "color", "radius"]
  return {
    position := ← f.required "location" Json.toVec3?
    power := ← f.required "power" Json.toSingle?
    color := ← f.required "color" Json.toVec3?
    radius := ← f.defaulted "radius" Json.toSingle? 0 }

/-- Reads a spot light. -/
def SpotLight.ofJson? (j : Json) : Option SpotLight := do
  let f ← j.fields?
    ["location", "direction", "power", "color", "radius", "spot_size", "spot_blend"]
  return {
    position := ← f.required "location" Json.toVec3?
    direction := ← f.required "direction" Json.toVec3?
    power := ← f.required "power" Json.toSingle?
    color := ← f.required "color" Json.toVec3?
    radius := ← f.defaulted "radius" Json.toSingle? 0
    angle := ← f.required "spot_size" Json.toSingle?
    blend := ← f.defaulted "spot_blend" Json.toSingle? 0 }

/-- Reads a sun. -/
def SunLight.ofJson? (j : Json) : Option SunLight := do
  let f ← j.fields? ["direction", "power", "color", "angle"]
  return {
    direction := ← f.required "direction" Json.toVec3?
    power := ← f.required "power" Json.toSingle?
    color := ← f.required "color" Json.toVec3?
    angle := ← f.defaulted "angle" Json.toSingle? 0 }

/-- Names are put between quotation marks. -/
def quoted (s : String) : String := "'" ++ s ++ "'"

/-- The kind of a light: its type, in which the case of ASCII letters does not matter, and the
parameters of that type. -/
def LightEntry.kind (name : String) (l : LightEntry) : Except Error LightKind :=
  let read {α : Type} (of : α → LightKind) (ofJson? : Json → Option α) : Except Error LightKind :=
    match ofJson? l.parameters with
    | some a => .ok (of a)
    | none => .error (.other ("light " ++ quoted name ++ ": unreadable parameters"))
  match l.type.toUpper with
  | "WORLD" => .ok .world
  | "AREA" => read .area AreaLight.ofJson?
  | "POINT" => read .point PointLight.ofJson?
  | "SPOT" => read .spot SpotLight.ofJson?
  | "SUN" => read .sun SunLight.ofJson?
  | type => .error (.other ("light " ++ quoted name ++ " has unknown type " ++ quoted type))

/-! ## The scene of a description -/

/-- The shape of an entry. A shape without a palette gets the scene's first material. -/
def ShapeEntry.toShape (base : String) (fallback : Option String) (name : String) (s : ShapeEntry) :
    Except Error Shape := do
  if s.type.toLower ≠ "ply" then
    throw (.other ("shape " ++ quoted name ++ " has unsupported type " ++ quoted s.type))
  let path := Text.joinPath base s.path
  match s.palette, fallback with
  | [], none => throw (.missingMaterial ("palette of shape " ++ quoted name))
  | [], some material => return ⟨name, path, [material]⟩
  | palette, _ => return ⟨name, path, palette⟩

/-- The entity of an entry. -/
def EntityEntry.toEntity (name : String) (e : EntityEntry) : Entity :=
  ⟨name, e.shape, e.visibility, e.transform⟩

/-- The light of an entry. -/
def LightEntry.toLight (name : String) (l : LightEntry) : Except Error Light := do
  return ⟨name, l.material, l.castsShadows, l.usesMis, ← l.kind name⟩

/-- The viewpoint of an entry. -/
def ViewpointEntry.toViewpoint (v : ViewpointEntry) : Viewpoint :=
  let standard : Viewpoint := {}
  { transform := v.transform.getD standard.transform
    nearClip := v.nearClip.getD standard.nearClip
    farClip := v.farClip.getD standard.farClip
    focalLength := v.focalLength
    film := v.film.getD standard.film
    shift := standard.shift }

/-- The name of the `n`-th material that the world's graph may become. -/
def worldName (n : Nat) : String :=
  if n = 0 then "World"
  else
    let digits := Nat.toDigits 10 n
    "World." ++ String.ofList (List.replicate (3 - digits.length) '0' ++ digits)

/-- The first name for the world's graph that is not taken. -/
def freshWorldName (taken : List String) : String :=
  Text.firstFree taken worldName taken.length 0

/-- The light of the world's graph. -/
def worldLight (material : String) : Light := ⟨"World", material, true, true, .world⟩

/-- Adds the world's graph to some materials and lights as a light of its own, unless there is a
world light. -/
def addWorld (materials : Keyed Graph) (lights : List Light) (world : Graph) :
    Keyed Graph × List Light :=
  if lights.any Light.isWorld then (materials, lights)
  else
    let name := freshWorldName materials.keys
    (materials.insert name world, lights ++ [worldLight name])

/-- The scene of a description. Mesh paths that are not absolute are looked up below `base`. -/
def Description.toScene (d : Description) (base : String) : Except Error Scene := do
  let fallback := d.materials.keys.head?
  let shapes ← d.shapes.entries.mapM fun (name, s) => s.toShape base fallback name
  let lights ← d.lights.entries.mapM fun (name, l) => l.toLight name
  let (materials, lights) := match d.world with
    | some world => addWorld d.materials lights world
    | none => (d.materials, lights)
  return {
    materials, shapes, lights
    entities := d.entities.entries.map fun (name, e) => e.toEntity name
    viewpoint := d.viewpoint.map ViewpointEntry.toViewpoint }

end Candela.Scene
