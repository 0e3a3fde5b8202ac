import Candela.Capacity
import Candela.Power

/-!
# Arenas

An arena is one array in which ranges are reserved, to be filled later; a range is an offset and a
length. Ranges may be handed out to be filled apart from each other: `Arena.split?` cuts the array
along ranges in increasing order, and `Split.join` puts the pieces together again.
-/

namespace Candela

/-- A range of an arena. -/
structure Arena.Range where
  offset : Nat
  length : Nat
  deriving DecidableEq

/-- The position after the last element. -/
def Arena.Range.stop (r : Arena.Range) : Nat := r.offset + r.length

/-- Whether a range has no elements. -/
def Arena.Range.isEmpty (r : Arena.Range) : Bool := r.length == 0

/-- An array in which ranges are reserved. -/
structure Arena (α : Type) where
  data : Array α

namespace Arena

variable {α : Type}

/-- The arena without elements. -/
def empty : Arena α := ⟨#[]⟩

/-- How many elements there are. -/
def size (a : Arena α) : Nat := a.data.size

/-- Whether a range lies within the arena. -/
def holds (a : Arena α) (r : Range) : Bool := r.stop ≤ a.size

/-- Adds some elements; the range that they fill. -/
def extend (a : Arena α) (items : Array α) : Range × Arena α :=
  (⟨a.size, items.size⟩, ⟨a.data ++ items⟩)

/-- Bytes of all elements. -/
def bytes [Stored α] (a : Arena α) : Nat := a.size * Stored.bytes α

/-- Adds as many default elements as asked for, unless they are too many for an array; the range
that they fill. -/
def reserve? [Inhabited α] [Stored α] (a : Arena α) (count : Nat) : Option (Range × Arena α) :=
  if canStore α (a.size + count) then some (a.extend (Array.replicate count default)) else none

/-- The element of a range at an index counted from its start. -/
def read? (a : Arena α) (r : Range) (index : Nat) : Option α :=
  if index < r.length then a.data[r.offset + index]? else none

/-- Replaces the element of a range at an index counted from its start. -/
def write? (a : Arena α) (r : Range) (index : Nat) (value : α) : Option (Arena α) :=
  if h : index < r.length ∧ r.offset + index < a.data.size then
    some ⟨a.data.set (r.offset + index) value h.2⟩
  else none

/-- The elements of a range. -/
def slice? (a : Arena α) (r : Range) : Option (Array α) :=
  if a.holds r then some (a.data.extract r.offset r.stop) else none

/-- The array with everything in a range replaced by one value. -/
def fill? (a : Arena α) (r : Range) (value : α) : Option (Arena α) :=
  if a.holds r then
    some ⟨a.data.mapIdx fun i x => if r.offset ≤ i ∧ i < r.stop then value else x⟩
  else none

/-! ## Splitting -/

/-- An arena in pieces: slices, each with what comes before it, and what comes after the last
one. -/
structure Split (α : Type) where
  pieces : List (List α × List α)
  rest : List α

/-- The slices. -/
def Split.slices (s : Split α) : List (List α) := s.pieces.map (·.2)

/-- The pieces with every slice replaced, its position being known. -/
def Split.mapSlices (s : Split α) (f : Nat → List α → List α) : Split α :=
  { s with pieces := s.pieces.mapIdx fun i (before, slice) => (before, f i slice) }

/-- The pieces put together. -/
def Split.join (s : Split α) : Arena α :=
  ⟨(s.pieces.flatMap (fun p => p.1 ++ p.2) ++ s.rest).toArray⟩

/-- Cuts what is left of an arena, from some position on, along ranges. Fails unless each range
begins after the one before it has ended, and all of them lie within the arena. -/
def splitFrom? (position : Nat) (data : List α) : List Range → Option (Split α)
  | [] => some ⟨[], data⟩
  | r :: rest =>
    if position ≤ r.offset ∧ r.stop ≤ position + data.length then
      let (before, data) := data.splitAt (r.offset - position)
      let (slice, data) := data.splitAt r.length
      (splitFrom? r.stop data rest).map fun s => { s with pieces := (before, slice) :: s.pieces }
    else none

/-- Cuts an arena along ranges. -/
def split? (a : Arena α) (ranges : List Range) : Option (Split α) :=
  splitFrom? 0 a.data.toList ranges

end Arena

/-- The least multiple of a power of two that is not below a number of bytes: their sum less one,
without the bits of the power less one. There is none of zero, and none where the sum is too large
for a word. -/
def alignUp? (value alignment : UInt64) : Option UInt64 :=
  if alignment ≠ 0 ∧ value.toNat + alignment.toNat < 2 ^ 64 then
    some ((value + alignment - 1) &&& ~~~(alignment - 1))
  else none

end Candela
