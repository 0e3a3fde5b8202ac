import Candela.Arena
import Candela.Bvh.Build
import Candela.Geometry.Triangle
import Candela.Material
import Candela.Mesh.Basic
import Candela.Scene.Basic

/-!
# The geometry of a scene

Shapes are registered when an entity first names them; shapes that no entity names are never read. A
registration compiles the shape's materials, reads the counts of its mesh, and reserves its ranges
of the vertices and triangles that all shapes share. The meshes are loaded afterwards: their
triangles then name vertices among those of all shapes, and surfaces instead of places in the
shape's palette.
-/

namespace Candela.Scene

/-- A registered shape. -/
structure ShapeInfo where
  name : String
  path : String
  /-- The shape's vertices among those of all shapes. -/
  vertices : Arena.Range
  /-- The shape's triangles among those of all shapes. -/
  faces : Arena.Range
  /-- The surfaces of the palette. -/
  palette : List Nat
  /-- Whether some material of the palette radiates light. -/
  hasEmission : Bool

/-- The counts that a shape's mesh must have. -/
def ShapeInfo.header (s : ShapeInfo) : Mesh.Header := ⟨s.vertices.length, s.faces.length⟩

/-- The shapes that have been registered, and those that may be. -/
structure ShapeTable where
  known : Keyed Shape
  registered : List ShapeInfo
  /-- How many vertices and triangles have been reserved. -/
  reserved : Mesh.Header

namespace ShapeTable

/-- Nothing has been registered. -/
def ofShapes (shapes : List Shape) : ShapeTable :=
  ⟨.ofList (shapes.map fun s => (s.name, s)), [], ⟨0, 0⟩⟩

/-- Adds a shape with the given counts, unless the vertices or triangles become too many for an
array. -/
def add (t : ShapeTable) (s : Shape) (palette : List Nat) (hasEmission : Bool) (h : Mesh.Header) :
    Except Error ShapeTable :=
  let reserved : Mesh.Header := ⟨t.reserved.vertices + h.vertices, t.reserved.faces + h.faces⟩
  let info : ShapeInfo := {
    name := s.name
    path := s.path
    vertices := ⟨t.reserved.vertices, h.vertices⟩
    faces := ⟨t.reserved.faces, h.faces⟩
    palette, hasEmission }
  if reserved.canStore then .ok { t with registered := t.registered ++ [info], reserved }
  else .error .overflow

end ShapeTable

/-- The surfaces of some materials. -/
def surfacesOf (m : Materials) : List String → Except Error (List Nat × Materials)
  | [] => .ok ([], m)
  | name :: rest =>
    match m.index .surface name with
    | (.error e, _) => .error e
    | (.ok i, m) => do
      let (is, m) ← surfacesOf m rest
      return (i :: is, m)

/-- The index of the shape of a name, which is registered if it is new. -/
def ShapeTable.index (t : ShapeTable) (source : Mesh.Source) (m : Materials) (name : String) :
    Except Error (Nat × ShapeTable × Materials) :=
  match t.registered.findIdx? (·.name == name) with
  | some i => .ok (i, t, m)
  | none =>
    match t.known.get? name with
    | none => .error (.missingShape name)
    | some s => do
      let (palette, m) ← surfacesOf m s.palette
      let header ← source.header s.path
      let next ← t.add s palette (s.palette.any m.hasEmission) header
      return (t.registered.length, next, m)

/-- The shapes of some entities, in their order. -/
def shapesOf (source : Mesh.Source) (t : ShapeTable) (m : Materials) :
    List Entity → Except Error (List Nat × ShapeTable × Materials)
  | [] => .ok ([], t, m)
  | e :: rest => do
    let (i, t, m) ← t.index source m e.shape
    let (is, t, m) ← shapesOf source t m rest
    return (i :: is, t, m)

/-! ## Loading -/

/-- A triangle of a shape among those of all shapes. -/
def ShapeInfo.placeFace (s : ShapeInfo) (f : Mesh.Face) : Except Error Mesh.Face := do
  let placed ← f.rebase s.vertices.offset.toUInt32
  match s.palette[f.material.toNat]? with
  | some surface => return { placed with material := surface.toUInt32 }
  | none =>
    throw (.mesh ("material index " ++ toString f.material.toNat ++ " outside palette of " ++
      toString s.palette.length))

/-- The vertices and triangles of a shape. -/
def ShapeInfo.load (s : ShapeInfo) (source : Mesh.Source) :
    Except Error (List Mesh.Vertex × List Mesh.Face) := do
  let mesh ← source.load s.path s.header
  let faces ← mesh.faces.toList.mapM s.placeFace
  return (mesh.vertices.toList, faces)

/-- A loaded shape: what was registered of it, the box of its vertices and the hierarchy of its
triangles. -/
structure LoadedShape where
  info : ShapeInfo
  box : Box Float32
  hierarchy : Bvh

/-- The geometry of all shapes. -/
structure Geometry where
  vertices : Array Mesh.Vertex
  faces : Array Mesh.Face
  shapes : Array LoadedShape

/-- The corners of a triangle, unless it names a vertex that does not exist. -/
def trianglePoints? (vertices : Array Mesh.Vertex) (f : Mesh.Face) : Option Triangle := do
  return ⟨(← vertices[f.a.toNat]?).position, (← vertices[f.b.toNat]?).position,
    (← vertices[f.c.toNat]?).position⟩

/-- A triangle by its index, in its shape's own space. -/
def Geometry.triangle? (g : Geometry) (face : Nat) : Option Triangle :=
  g.faces[face]?.bind (trianglePoints? g.vertices)

/-- The hierarchy of a shape's triangles. -/
def hierarchyOf (vertices : Array Mesh.Vertex) (faces : List Mesh.Face) : Except Error Bvh :=
  match faces.mapM (trianglePoints? vertices) with
  | some triangles => .ok (Bvh.ofBoxes (triangles.map fun t => .ofPoints t.corners))
  | none => .error .outOfBounds

/-- Loads every registered shape. All meshes are read before any hierarchy is built. -/
def ShapeTable.load (t : ShapeTable) (source : Mesh.Source) : Except Error Geometry := do
  let loaded ← t.registered.mapM fun s => return (s, ← s.load source)
  let vertices := (loaded.flatMap fun (_, v, _) => v).toArray
  let faces := (loaded.flatMap fun (_, _, f) => f).toArray
  let shapes ← loaded.mapM fun (s, v, f) =>
    return ⟨s, .ofPoints (v.map (·.position)), ← hierarchyOf vertices f⟩
  return ⟨vertices, faces, shapes.toArray⟩

end Candela.Scene
