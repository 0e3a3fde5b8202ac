import Candela.Bvh.Basic

/-!
# Building hierarchies

A set of items is split where the expected work of a random ray is least. The work is estimated from
the areas of the boxes: along each axis the middles of the items' boxes are sorted into twelve bins,
and every border between two bins is a candidate. A set of at most four items, one at the greatest
depth, and one that no candidate makes cheaper is a leaf.
-/

namespace Candela.Bvh

/-- The number of bins along an axis. -/
def binCount : Nat := 12

/-- A set of up to this many items is not split. -/
def maxLeafSize : Nat := 4

/-- The greatest depth. A traversal keeps at most one more node in mind, which must not be more than
the device has room for. -/
def maxDepth : Nat := 62

/-- Something to be put into a hierarchy: its index and its box. -/
structure Item where
  index : Nat
  box : Box Float32

/-- The boxes of items in one bin, and how many they are. -/
structure Bin where
  box : Box Float32
  count : Nat

/-- A bin without items. -/
def Bin.empty : Bin := ⟨.empty, 0⟩

/-- A bin with everything that is in two bins. -/
def Bin.merge (a b : Bin) : Bin := ⟨a.box.grow b.box, a.count + b.count⟩

/-- The expected work for the items in a bin. -/
def Bin.cost (b : Bin) : Float32 := Float32.ofNat b.count * b.box.area

/-- A way to split: the items whose middle on an axis is before a position go left. -/
structure Split where
  axis : Nat
  position : Float32
  cost : Float32

/-- The bin of a middle on an axis, the bounds of all middles on that axis given. -/
def binOf (low extent middle : Float32) : Nat :=
  min ((middle - low) * (Float32.ofNat binCount / extent)).toUInt64.toNat (binCount - 1)

/-- The items sorted into bins along an axis. -/
def binsOf (items : List Item) (axis : Nat) (low extent : Float32) : Array Bin :=
  items.foldl (fun bins item =>
      bins.modify (binOf low extent (item.box.centroid.axis axis)) (·.merge ⟨item.box, 1⟩))
    (Array.replicate binCount .empty)

/-- Each bin merged with all bins before it, and with the given one. -/
def accumulate (before : Bin) : List Bin → List Bin
  | [] => []
  | b :: rest => before.merge b :: accumulate (before.merge b) rest

/-- The splits along an axis, from the last border to the first one. A border has at least one bin
on either side. Along an axis on which all middles agree there is none. -/
def splitsAlong (items : List Item) (middles : Box Float32) (axis : Nat) : List Split :=
  let low := middles.lower.axis axis
  let extent := middles.upper.axis axis - low
  if extent < 1e-8 then []
  else
    let bins := (binsOf items axis low extent).toList
    let lefts := (accumulate .empty bins).dropLast.reverse
    let rights := accumulate .empty bins.reverse
    (lefts.zip rights).mapIdx fun i (left, right) =>
      { axis
        position := low + (Float32.ofNat (binCount - 1 - i) / Float32.ofNat binCount) * extent
        cost := 1 + (left.cost + right.cost) }

/-- The splits along all axes. -/
def splits (items : List Item) : List Split :=
  let middles := Box.ofPoints (items.map fun i => i.box.centroid)
  (List.range 3).flatMap (splitsAlong items middles)

/-- The first of the cheapest splits; one of infinite cost is none. -/
def cheapest? (splits : List Split) : Option Split :=
  splits.foldl (fun best s =>
    if s.cost < (best.map (·.cost)).getD Single.infinity then some s else best) none

/-- Sorts `x` and `rest` further elements by a predicate, from both ends: while elements go left the
next one is taken from the front, and after one that goes right the next one is taken from the back.
The elements after `x` are given in order and in reverse; what has been sorted is given as the left
part in reverse and the right part in order. -/
def partitionFrom {α : Type} (p : α → Bool) (x : α) :
    (rest : Nat) → (front back left right : List α) → List α × List α
  | 0, _, _, left, right => if p x then ((x :: left).reverse, right) else (left.reverse, x :: right)
  | rest + 1, front, back, left, right =>
    if p x then
      match front with
      | [] => ((x :: left).reverse, right)
      | y :: front => partitionFrom p y rest front back (x :: left) right
    else
      match back with
      | [] => (left.reverse, x :: right)
      | y :: back => partitionFrom p y rest front back left (x :: right)

/-- The elements with a property and those without, in the order of a partition in place. -/
def partition {α : Type} (p : α → Bool) : List α → List α × List α
  | [] => ([], [])
  | x :: rest => partitionFrom p x rest.length rest rest.reverse [] []

/-- The items on either side of a split; a split that leaves one side without items is replaced by
one in the middle. -/
def divide (s : Split) (items : List Item) : List Item × List Item :=
  let (left, right) := partition (fun i => i.box.centroid.axis s.axis < s.position) items
  if left.isEmpty || right.isEmpty then (left ++ right).splitAt (items.length / 2)
  else (left, right)

/-- Whether a split is not worth while for items with a box around them. -/
def Split.isDear (s : Split) (items : List Item) (box : Box Float32) : Bool :=
  Float32.ofNat items.length * box.area ≤ s.cost

/-- The tree of some items, at most `depth` deep. -/
def Tree.build (depth : Nat) (items : List Item) : Tree :=
  let box := Box.union (items.map (·.box))
  let leaf := Tree.leaf box (items.map (·.index))
  match depth with
  | 0 => leaf
  | depth + 1 =>
    if items.length ≤ maxLeafSize then leaf
    else
      match cheapest? (splits items) with
      | none => leaf
      | some s =>
        if s.isDear items box then leaf
        else
          let (left, right) := divide s items
          .branch box (Tree.build depth left) (Tree.build depth right)

/-- The hierarchy of some boxes, at most `depth` deep; the boxes are known by their positions. -/
def ofBoxesLimited (depth : Nat) (boxes : List (Box Float32)) : Bvh :=
  match boxes.mapIdx fun i b => (⟨i, b⟩ : Item) with
  | [] => ⟨none⟩
  | items => ⟨some (Tree.build depth items)⟩

/-- The hierarchy of some boxes. -/
def ofBoxes (boxes : List (Box Float32)) : Bvh := ofBoxesLimited maxDepth boxes

end Candela.Bvh
