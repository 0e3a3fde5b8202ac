import Candela.Geometry.Box

/-!
# Hierarchies of boxes

A hierarchy sorts things that have boxes, known by their indices, into a binary tree: every subtree
has a box around everything below it. For traversal the tree is laid out as an array of nodes, the
two children of a node side by side, and the indices in its leaves from left to right as a second
array. `Tree` is the hierarchy and `Node` its laid-out form; `Tree.place` says where each part goes,
and `Tree.read?` finds the parts again.
-/

namespace Candela.Bvh

/-- A binary tree of boxes with indices in its leaves. -/
inductive Tree where
  | leaf (box : Box Float32) (items : List Nat)
  | branch (box : Box Float32) (left right : Tree)

namespace Tree

/-- The box around everything in a tree. -/
def box : Tree → Box Float32
  | leaf b _ => b
  | branch b _ _ => b

/-- The indices, from left to right. -/
def items : Tree → List Nat
  | leaf _ is => is
  | branch _ l r => l.items ++ r.items

/-- The number of steps from the root to the farthest leaf. -/
def depth : Tree → Nat
  | leaf _ _ => 0
  | branch _ l r => max l.depth r.depth + 1

/-- How many leaves there are. -/
def leafCount : Tree → Nat
  | leaf _ _ => 1
  | branch _ l r => l.leafCount + r.leafCount

end Tree

/-- A node of a laid-out hierarchy. -/
inductive Node where
  /-- The root of a hierarchy without items. -/
  | empty
  /-- A node whose children are at `left` and after it. -/
  | branch (box : Box Float32) (left : Nat)
  /-- A node with `count` items, the first of them at `first`. -/
  | leaf (box : Box Float32) (first count : Nat)

/-- The box of a node; that of a root without items is a point. -/
def Node.box : Node → Box Float32
  | empty => ⟨.zero, .zero⟩
  | branch b _ => b
  | leaf b _ _ => b

/-- A node whose children and items are moved along the arrays. -/
def Node.shift (nodes items : Nat) : Node → Node
  | empty => empty
  | branch b left => branch b (left + nodes)
  | leaf b first count => leaf b (first + items) count

/-- Lays a tree out, its root at `slot`, its items from `first` on. The children of a root are put
at the end of the nodes so far, then everything below the left one, then everything below the right
one. -/
def Tree.place : Tree → (slot first : Nat) → Array Node → Array Node
  | leaf b is, slot, first, nodes => nodes.setIfInBounds slot (.leaf b first is.length)
  | branch b l r, slot, first, nodes =>
    let left := nodes.size
    let nodes := (nodes.setIfInBounds slot (.branch b left)).push .empty |>.push .empty
    r.place (left + 1) (first + l.items.length) (l.place left first nodes)

/-- Reads the tree below a node, if it has no more than so many levels and all its parts are
there. -/
def Tree.read? (nodes : Array Node) (items : Array Nat) : (levels root : Nat) → Option Tree
  | 0, _ => none
  | levels + 1, root => do
    match ← nodes[root]? with
    | .empty => none
    | .leaf box first count => return .leaf box (← (List.range' first count).mapM (items[·]?))
    | .branch box left =>
      let l ← read? nodes items levels left
      let r ← read? nodes items levels (left + 1)
      return .branch box l r

end Candela.Bvh

namespace Candela

/-- A hierarchy, which may have no items. -/
structure Bvh where
  root : Option Bvh.Tree

namespace Bvh

/-- The nodes of the laid-out hierarchy. -/
def nodes (h : Bvh) : Array Node :=
  match h.root with
  | none => #[.empty]
  | some t => t.place 0 0 #[.empty]

/-- The indices in the leaves, from left to right. -/
def items (h : Bvh) : List Nat := (h.root.map Tree.items).getD []

/-- Reads the hierarchy below a node, which may be the root of one without items. -/
def read? (nodes : Array Node) (items : Array Nat) (root : Nat) : Option Bvh := do
  match ← nodes[root]? with
  | .empty => return ⟨none⟩
  | _ => return ⟨some (← Tree.read? nodes items nodes.size root)⟩

/-- The box around everything. -/
def box (h : Bvh) : Box Float32 := (h.root.map Tree.box).getD .empty

/-- The number of steps from the root to the farthest leaf. -/
def depth (h : Bvh) : Nat := (h.root.map Tree.depth).getD 0

end Bvh

end Candela
