import Candela.Bvh.Packed

/-!
# Hierarchies in words

The device has no cases to tell nodes apart by. A node is a box and two words: how many items it
has, and where its items begin or, if it has none, where its children are. No node has the very
first one for a child, so a node without items that names it is the root of a hierarchy without
items. When hierarchies are packed, the words of each are moved along by themselves.
-/

namespace Candela.Bvh

/-- A node in words. -/
structure Record where
  lower : Vec3 Float32
  /-- The place of the first item of a leaf, or of the left child of a node with children. -/
  link : UInt32
  upper : Vec3 Float32
  /-- The number of items of a leaf. -/
  count : UInt32

namespace Record

/-- Whether a node has items. -/
def isLeaf (r : Record) : Bool := 0 < r.count

/-- Whether a node is the root of a hierarchy without items. -/
def isEmpty (r : Record) : Bool := r.count == 0 && r.link == 0

/-- The node that some words stand for. -/
def node (r : Record) : Node :=
  if r.isLeaf then .leaf ⟨r.lower, r.upper⟩ r.link.toNat r.count.toNat
  else if r.isEmpty then .empty
  else .branch ⟨r.lower, r.upper⟩ r.link.toNat

/-- A node whose items or children are moved along the arrays. -/
def rebase (nodes items : UInt32) (r : Record) : Record :=
  if r.isLeaf then { r with link := r.link + items }
  else if r.isEmpty then r
  else { r with link := r.link + nodes }

end Record

/-- The words of a node. -/
def Node.record (n : Node) : Record :=
  let (link, count) := match n with
    | .empty => (0, 0)
    | .branch _ left => (left, 0)
    | .leaf _ first count => (first, count)
  ⟨n.box.lower, link.toUInt32, n.box.upper, count.toUInt32⟩

/-- A hierarchy in words, or several of them. -/
structure Words where
  nodes : Array Record
  items : Array UInt32

/-- The words of a hierarchy by itself. -/
def words (h : Bvh) : Words where
  nodes := h.nodes.map Node.record
  items := (h.items.map Nat.toUInt32).toArray

namespace Words

/-- The nodes that the words stand for. -/
def readNodes (w : Words) : Array Node := w.nodes.map Record.node

/-- The items that the words stand for. -/
def readItems (w : Words) : Array Nat := w.items.map UInt32.toNat

/-- The hierarchy below a node. -/
def read? (w : Words) (root : Nat) : Option Bvh := Bvh.read? w.readNodes w.readItems root

/-- Puts the words of a hierarchy after others. -/
def append (w w' : Words) : Words where
  nodes := w.nodes ++ w'.nodes.map (Record.rebase w.nodes.size.toUInt32 w.items.size.toUInt32)
  items := w.items ++ w'.items

end Words

/-- A packed scene in words. -/
structure PackedWords extends Words where
  roots : Array UInt32
  instanceCount : UInt32

namespace PackedWords

/-- Puts a shape's hierarchy after what has been packed. -/
def appendShape (w : PackedWords) (shape : Words) : PackedWords where
  toWords := w.append shape
  roots := w.roots.push w.nodes.size.toUInt32
  instanceCount := w.instanceCount

/-- The packed scene that the words stand for. -/
def read (w : PackedWords) : Packed where
  nodes := w.readNodes
  items := w.readItems
  roots := w.roots.map UInt32.toNat
  instanceCount := w.instanceCount.toNat

end PackedWords

/-- The words of a packed scene. -/
def Packed.words (p : Packed) : PackedWords where
  nodes := p.nodes.map Node.record
  items := p.items.map Nat.toUInt32
  roots := p.roots.map Nat.toUInt32
  instanceCount := p.instanceCount.toUInt32

/-- Packs the words of some shapes' hierarchies below those of a hierarchy of some instances. -/
def packWords (shapes : List Words) (instances : List Instance) : PackedWords :=
  let top := (ofBoxes (instances.map (·.box))).words
  let start : PackedWords :=
    { toWords := Words.append ⟨#[], #[]⟩ top
      roots := #[]
      instanceCount := instances.length.toUInt32 }
  shapes.foldl .appendShape start

end Candela.Bvh
