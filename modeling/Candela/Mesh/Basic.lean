import Candela.Capacity
import Candela.Geometry.Vector

/-!
# Meshes

A mesh is vertices and triangles. Its counts are read ahead of its contents, to reserve room for
them, so they are in its type: whatever is loaded for a header has the header's counts.
-/

namespace Candela

/-- A vertex: its place, its normal and its texture coordinates. -/
structure Mesh.Vertex where
  position : Vec3 Float32
  normal : Vec3 Float32
  u : Float32
  v : Float32

/-- A triangle: three vertices and a material, by their indices. -/
structure Mesh.Face where
  a : UInt32
  b : UInt32
  c : UInt32
  material : UInt32
  deriving DecidableEq

/-- The counts of a mesh. -/
structure Mesh.Header where
  vertices : Nat
  faces : Nat
  deriving DecidableEq

instance : Stored Mesh.Vertex := ⟨32⟩
instance : Stored Mesh.Face := ⟨16⟩

/-- Whether arrays can have as many vertices and triangles. -/
def Mesh.Header.canStore (h : Mesh.Header) : Bool :=
  Candela.canStore Mesh.Vertex h.vertices && Candela.canStore Mesh.Face h.faces

/-- A mesh with the given counts. -/
structure Mesh (h : Mesh.Header) where
  vertices : Vector Mesh.Vertex h.vertices
  faces : Vector Mesh.Face h.faces

namespace Mesh

/-- The indices of the vertices of a triangle. -/
def Face.corners (f : Face) : List UInt32 := [f.a, f.b, f.c]

/-- An index of a vertex that is looked up `base` later, which a word has to hold. -/
def rebaseIndex (base index : UInt32) : Except Error UInt32 := do
  let _ ← inWord (index.toNat + base.toNat)
  return index + base

/-- A triangle whose vertices are looked up `base` later. -/
def Face.rebase (f : Face) (base : UInt32) : Except Error Face := do
  return { f with
    a := ← rebaseIndex base f.a
    b := ← rebaseIndex base f.b
    c := ← rebaseIndex base f.c }

/-- Where meshes come from, by path. -/
structure Source where
  /-- The counts of a mesh. -/
  header : String → Except Error Header
  /-- The mesh of a path, which must have the counts that were read before. -/
  load : String → (h : Header) → Except Error (Mesh h)

/-- The error when a mesh does not have the counts that were read before. -/
def changed : Error := .mesh "mesh changed after its header was read"

/-- The counts of a list of vertices and a list of triangles. -/
def Header.ofArrays (vertices : Array Vertex) (faces : Array Face) : Header :=
  ⟨vertices.size, faces.size⟩

/-- The mesh of a list of vertices and a list of triangles, if it has the given counts. -/
def ofArrays (vertices : Array Vertex) (faces : Array Face) (h : Header) : Except Error (Mesh h) :=
  if eq : vertices.size = h.vertices ∧ faces.size = h.faces then
    .ok ⟨⟨vertices, eq.1⟩, ⟨faces, eq.2⟩⟩
  else .error changed

/-- Meshes that are kept in memory. -/
def Source.ofArrays (find : String → Option (Array Vertex × Array Face)) : Source where
  header path := match find path with
    | some (vertices, faces) => .ok (.ofArrays vertices faces)
    | none => .error (.mesh "no such mesh")
  load path h := match find path with
    | some (vertices, faces) => Mesh.ofArrays vertices faces h
    | none => .error (.mesh "no such mesh")

end Mesh

end Candela
