import Candela.Environment.Layout
import Candela.Error
import Candela.Geometry.Vector
import Candela.Power
import Candela.Single

/-!
# Importance tables

The world is sampled where it is bright. Its importance is tabulated over the square of directions
and summed up in blocks of four (`Table.ofImportance`); sampling goes down from the whole square,
choosing in every block first the left or the right half and then the upper or the lower one
(`Branch`), so that a cell is found with the share of the whole that it holds. Tables and paths work
over any scalars, exact ones too.
-/

namespace Candela.Environment

/-! ## The square and the sphere

Directions are points of the unit square: the first coordinate is the angle around the third axis,
the second one goes down along it. Equal areas of the square are equal solid angles.
-/

/-- A full turn. -/
def tau : Float32 := 2 * Single.pi

/-- The direction of a point of the square. -/
def toSphere (u v : Float32) : Vec3 Float32 :=
  let z := 1 - 2 * v
  let r := (Single.max (1 - z * z) 0).sqrt
  let phi := tau * u
  ⟨r * phi.cos, r * phi.sin, z⟩

/-- The point of the square of a direction. -/
def toSquare (d : Vec3 Float32) : Float32 × Float32 :=
  let phi := d.y.atan2 d.x
  let phi := if phi < 0 then phi + tau else phi
  (phi / tau, (1 - Single.clamp d.z (-1) 1) * 0.5)

/-! ## Tables -/

/-- What tables ask of their scalars besides arithmetic. -/
class Scalar (α : Type) where
  /-- A count. -/
  ofCount : Nat → α
  /-- One over the solid angle of the sphere. -/
  perSphere : α
  /-- What numbers below one are kept to. -/
  belowOne : α

instance : Scalar Float32 := ⟨Float32.ofNat, 1 / (4 * Single.pi), 0.99999994⟩

/-- A table. -/
structure Table (α : Type) where
  layout : Layout
  data : Array α
  size_data : data.size = layout.length

section
variable {α : Type} [OfNat α 0]

/-- The element at an index, zero where there is none. -/
def entry (data : Array α) (i : Nat) : α := data.getD i 0

/-! ## Pyramids -/

/-- The sums over blocks of two by two cells. -/
def reduce [Add α] (k : Nat) (fine : Array α) : Vector α (4 ^ k) :=
  Vector.ofFn fun i =>
    let r := 2 ^ k
    let first := 2 * (i.val / r) * (2 * r) + 2 * (i.val % r)
    entry fine first + entry fine (first + 1) + entry fine (first + 2 * r) +
      entry fine (first + 2 * r + 1)

/-- All levels above some cells, the cells included. -/
def pyramid [Add α] : (k : Nat) → Vector α (4 ^ k) → Array α
  | 0, base => base.toArray
  | k + 1, base => base.toArray ++ pyramid k (reduce k base.toArray)

/-- The size of a pyramid. -/
theorem size_pyramid [Add α] : ∀ (k : Nat) (base : Vector α (4 ^ k)),
    3 * (pyramid k base).size + 1 = 4 ^ (k + 1)
  | 0, base => by simp [pyramid]
  | k + 1, base => by
    have h := size_pyramid k (reduce k base.toArray)
    simp only [pyramid, Array.size_append, Vector.size_toArray]
    rw [Nat.pow_succ 4 (k + 1)]
    omega

/-- The densities end where the table does. -/
theorem size_pyramid_append [Add α] (l : Layout) (base pdf : Vector α (4 ^ l.exponent)) :
    (pyramid l.exponent base ++ pdf.toArray).size = l.length := by
  have h := size_pyramid l.exponent base
  simp only [Array.size_append, Vector.size_toArray, Layout.length, Layout.pdfOffset]
  omega

namespace Table

section
variable [Add α] [Mul α] [Div α] [LT α] [DecidableLT α] [Scalar α]

/-- The density of a cell of the given importance; where nothing is important all cells are
alike. -/
def density (cells : Nat) (total importance : α) : α :=
  if 0 < total then importance / total * Scalar.ofCount cells * Scalar.perSphere
  else Scalar.perSphere

/-- The table of the importances of all cells. -/
def ofCells (l : Layout) (base : Vector α (4 ^ l.exponent)) : Table α :=
  let levels := pyramid l.exponent base
  let total := entry levels l.totalOffset
  ⟨l, levels ++ (base.map (density (4 ^ l.exponent) total)).toArray, size_pyramid_append l base _⟩

/-- The table of the importances of all cells, which must be as many as the square has. -/
def ofImportance (l : Layout) (base : Array α) : Except Error (Table α) :=
  if h : base.size = 4 ^ l.exponent then .ok (ofCells l ⟨base, h⟩) else .error .outOfBounds

end

/-- The table that an array is, if it is as long as a table. -/
def ofData? (l : Layout) (data : Array α) : Option (Table α) :=
  if h : data.size = l.length then some ⟨l, data, h⟩ else none

/-- The sum over the whole square. -/
def total (t : Table α) : α := entry t.data t.layout.totalOffset

/-- The sum over a cell of a level. -/
def value (t : Table α) (level x y : Nat) : α := entry t.data (t.layout.cell level x y)

/-- The density of a cell. -/
def cellPdf (t : Table α) (x y : Nat) : α := entry t.data (t.layout.pdfCell x y)

end Table

end

/-! ## Paths -/

/-- The four cells of a block: upper left, upper right, lower left, lower right. -/
structure Block (α : Type) where
  a : α
  b : α
  c : α
  d : α

/-- A share of a whole that is not zero, and a half otherwise. -/
def share {α : Type} [Add α] [Div α] [LT α] [DecidableLT α] [OfNat α 0] [OfNat α 1]
    (part whole : α) : α :=
  if 0 < whole then part / whole else 1 / (1 + 1)

namespace Block

variable {α : Type} [Add α] [Div α] [LT α] [DecidableLT α] [OfNat α 0] [OfNat α 1]

/-- The probability of the left half. -/
def left (q : Block α) : α := share (q.a + q.c) (q.a + q.b + q.c + q.d)

/-- The probability of the upper cell in the left or the right half. -/
def top (q : Block α) (right : Bool) : α :=
  if right then share q.b (q.b + q.d) else share q.a (q.a + q.c)

end Block

/-- Chooses the first of two halves if a number is below its probability, and stretches what is left
of the number to the whole unit interval again. -/
def choose {α : Type} [Sub α] [Div α] [LT α] [DecidableLT α] [OfNat α 1] (u p : α) : Bool × α :=
  if u < p then (false, u / p) else (true, (u - p) / (1 - p))

/-- A number kept between zero and the greatest number below one; what is no number becomes zero. -/
def keepBelowOne {α : Type} [LT α] [DecidableLT α] [OfNat α 0] [Scalar α] (u : α) : α :=
  let u := if 0 < u then u else 0
  if u < Scalar.belowOne then u else Scalar.belowOne

/-- A point on a path: a cell, and two numbers that are still to be used. -/
structure Cursor (α : Type) where
  x : Nat
  y : Nat
  u : α
  v : α

section
variable {α : Type} [Add α] [Sub α] [Div α] [LT α] [DecidableLT α] [OfNat α 0] [OfNat α 1]

/-- The four cells at a level that a cell of the next level consists of. -/
def Table.block (t : Table α) (level x y : Nat) : Block α :=
  ⟨t.value level (2 * x) (2 * y), t.value level (2 * x + 1) (2 * y),
    t.value level (2 * x) (2 * y + 1), t.value level (2 * x + 1) (2 * y + 1)⟩

/-- Goes down to a level from the next one. -/
def Table.descend [Scalar α] (t : Table α) (level : Nat) (c : Cursor α) : Cursor α :=
  let q := t.block level c.x c.y
  let (right, u) := choose c.u q.left
  let (bottom, v) := choose c.v (q.top right)
  ⟨2 * c.x + right.toNat, 2 * c.y + bottom.toNat, keepBelowOne u, keepBelowOne v⟩

/-- Goes down from a level to the cells. -/
def Table.descendFrom [Scalar α] (t : Table α) : Nat → Cursor α → Cursor α
  | 0, c => c
  | level + 1, c => t.descendFrom level (t.descend level c)

/-- The path of two numbers from the whole square to a cell. -/
def Table.path [Scalar α] (t : Table α) (u v : α) : Cursor α :=
  t.descendFrom t.layout.exponent ⟨0, 0, u, v⟩

end

/-! ## Directions -/

/-- The table of a function of directions, which is taken at the middle of every cell. What it gives
below zero, and what is no number, counts as zero. -/
def Table.ofFunction (l : Layout) (importance : Vec3 Float32 → Float32) : Table Float32 :=
  ofCells l (Vector.ofFn fun i =>
    let r := l.resolution
    let middle (n : Nat) := (Float32.ofNat n + 0.5) / Float32.ofNat r
    Single.max (importance (toSphere (middle (i.val % r)) (middle (i.val / r)))) 0)

/-- A direction and its density, chosen by two numbers in the unit interval. -/
def Table.sample (t : Table Float32) (u v : Float32) : Vec3 Float32 × Float32 :=
  let c := t.path u v
  let r := Float32.ofNat t.layout.resolution
  (toSphere ((Float32.ofNat c.x + c.u) / r) ((Float32.ofNat c.y + c.v) / r), t.cellPdf c.x c.y)

/-- The cell of a coordinate, the last one where it is too large. -/
def cellOf (resolution : Nat) (u : Float32) : Nat :=
  min (u * Float32.ofNat resolution).toUInt32.toNat (resolution - 1)

/-- The density with which a direction is chosen. -/
def Table.pdf (t : Table Float32) (d : Vec3 Float32) : Float32 :=
  let (u, v) := toSquare d
  t.cellPdf (cellOf t.layout.resolution u) (cellOf t.layout.resolution v)

end Candela.Environment
