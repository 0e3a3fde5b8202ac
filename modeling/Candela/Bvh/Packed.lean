import Candela.Bvh.Build

/-!
# Two levels of hierarchies

A scene has a hierarchy of its instances on top, and one hierarchy of triangles for every shape. All
of them are packed into one array of nodes and one of indices, the top level first and the shapes in
their order; indices are moved along while packing, so a hierarchy is known by its root.
-/

namespace Candela.Bvh

/-- A shape at a place. -/
structure Instance where
  /-- The index of the shape's hierarchy. -/
  shape : Nat
  /-- The box in the world. -/
  box : Box Float32
  /-- From the world to the shape's own space. -/
  toObject : Mat4 Float32

/-- A packed scene. -/
structure Packed where
  /-- The nodes of all hierarchies; the root of the top level is the first one. -/
  nodes : Array Node
  /-- The items of all hierarchies. -/
  items : Array Nat
  /-- The root of every shape's hierarchy. -/
  roots : Array Nat
  /-- How many instances there are. -/
  instanceCount : Nat

/-- Puts a hierarchy after what has been packed. -/
def Packed.append (p : Packed) (h : Bvh) : Packed :=
  { p with
    nodes := p.nodes ++ h.nodes.map (Node.shift p.nodes.size p.items.size)
    items := p.items ++ h.items.toArray }

/-- Puts a shape's hierarchy after what has been packed. -/
def Packed.appendShape (p : Packed) (h : Bvh) : Packed :=
  { p.append h with roots := p.roots.push p.nodes.size }

/-- Packs the hierarchies of some shapes below one of some instances. -/
def pack (shapes : List Bvh) (instances : List Instance) : Packed :=
  let top := ofBoxes (instances.map (·.box))
  let start : Packed :=
    { nodes := #[], items := #[], roots := #[], instanceCount := instances.length }
  shapes.foldl Packed.appendShape (start.append top)

end Candela.Bvh
