import Candela.Geometry.Matrix
import Candela.Geometry.Vector
import Candela.Single

/-!
# Boxes

Boxes with axis-parallel sides, by their least and greatest corners. The empty box has its corners
the wrong way round, so that growing it by a point gives the box of that point. Growing,
transforming and the slab test work over any scalars with two extremes; sizes are measured in single
precision.
-/

namespace Candela

/-- What boxes ask of their scalars: values beyond all others, and the lesser and the greater of
two, which is the other one where one of them is no number. -/
class Extremes (α : Type) where
  lowest : α
  highest : α
  least : α → α → α
  greatest : α → α → α

instance : Extremes Float32 := ⟨-Single.infinity, Single.infinity, Single.min, Single.max⟩

open Extremes

/-- A box. -/
structure Box (α : Type) where
  lower : Vec3 α
  upper : Vec3 α
  deriving DecidableEq

namespace Box

variable {α : Type}

section
variable [Extremes α]

/-- The box without points. -/
def empty : Box α := ⟨.splat highest, .splat lowest⟩

/-- The least box around a box and a point. -/
def growPoint (b : Box α) (p : Vec3 α) : Box α :=
  ⟨b.lower.zipWith least p, b.upper.zipWith greatest p⟩

/-- The least box around two boxes. -/
def grow (a b : Box α) : Box α :=
  ⟨a.lower.zipWith least b.lower, a.upper.zipWith greatest b.upper⟩

/-- The least box around some points. -/
def ofPoints (ps : List (Vec3 α)) : Box α := ps.foldl growPoint empty

/-- The least box around some boxes. -/
def union (bs : List (Box α)) : Box α := bs.foldl grow empty

end

/-- Whether a box has no points. -/
def isEmpty [LT α] [DecidableLT α] (b : Box α) : Bool :=
  b.upper.x < b.lower.x || b.upper.y < b.lower.y || b.upper.z < b.lower.z

/-- The eight corners. -/
def corners (b : Box α) : List (Vec3 α) :=
  [b.lower.z, b.upper.z].flatMap fun z =>
    [b.lower.y, b.upper.y].flatMap fun y => [b.lower.x, b.upper.x].map fun x => ⟨x, y, z⟩

/-- The least box around the images of the corners under a matrix. -/
def transform [Extremes α] [Add α] [Mul α] [Div α] [OfNat α 1] [LT α] [DecidableLT α] (b : Box α)
    (m : Mat4 α) : Box α :=
  if b.isEmpty then b else ofPoints (b.corners.map m.project)

/-- Where a ray meets a box, not farther away than `limit`: the greatest of the three distances at
which it enters the slabs between opposite sides, if it has not left any of them by then. The ray is
given by its origin and by one over each component of its direction. -/
def entry? [Extremes α] [Sub α] [Mul α] [OfNat α 0] [LT α] [DecidableLT α] [LE α] [DecidableLE α]
    (b : Box α) (origin inverse : Vec3 α) (limit : α) : Option α :=
  let lesser (a b : α) := if a < b then a else b
  let larger (a b : α) := if b < a then a else b
  let t0 := (b.lower - origin) * inverse
  let t1 := (b.upper - origin) * inverse
  let enter := t0.zipWith lesser t1
  let leave := t0.zipWith larger t1
  let near := greatest (larger enter.x (larger enter.y enter.z)) 0
  let far := least (lesser leave.x (lesser leave.y leave.z)) limit
  if near ≤ far then some near else none

/-! ## Sizes -/

/-- The lengths of the sides. -/
def size (b : Box Float32) : Vec3 Float32 := b.upper - b.lower

/-- The area of the surface; the empty box has none. -/
def area (b : Box Float32) : Float32 :=
  if b.isEmpty then 0
  else
    let d := b.size
    2 * (d.x * d.y + d.y * d.z + d.z * d.x)

/-- The axis along which the box is longest. -/
def longestAxis (b : Box Float32) : Nat :=
  let d := b.size
  if d.y ≤ d.x && d.z ≤ d.x then 0 else if d.z ≤ d.y then 1 else 2

/-- The middle. -/
def centroid (b : Box Float32) : Vec3 Float32 := (b.lower + b.upper).scale 0.5

/-- One over the lengths of the sides, zero for a side without a length. -/
def inverseExtent (b : Box Float32) : Vec3 Float32 :=
  if b.isEmpty then .zero else b.size.map fun e => if Single.epsilon < e then 1 / e else 0

end Box

end Candela
