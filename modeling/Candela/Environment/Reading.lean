import Candela.Capacity
import Candela.Environment.Table

/-!
# Reading importance tables by words

Sampling as a machine with words does it: cells are counted in words of 32 bits and places in words
of 64. Every sum, product, difference and shift is checked, and every place is looked up; what does
not fit its word, or is not in the table, ends the run with an error. What is read is noted, in
order.
-/

namespace Candela.Environment

/-! ## Words -/

/-- A place that a word of 64 bits has to hold. -/
def inLongWord (n : Nat) : Except Error Nat := if n < 2 ^ 64 then .ok n else .error .overflow

/-- The difference of two counts, of which the second must not be greater. -/
def minus (a b : Nat) : Except Error Nat := if b ≤ a then .ok (a - b) else .error .overflow

/-- The bit at a position of a word, which must have so many bits. -/
def oneBit (width position : Nat) : Except Error Nat :=
  if position < width then .ok (1 <<< position) else .error .overflow

namespace Layout

/-- Cells a side. -/
def resolutionWord (l : Layout) : Except Error Nat := oneBit 32 l.exponent

/-- Cells a side at a level. -/
def levelResolutionWord (l : Layout) (level : Nat) : Except Error Nat := do
  oneBit 32 (← minus l.exponent level)

/-- Twice the number after a count of levels, as a position in a word of 64 bits. -/
def doubled (levels : Nat) : Except Error Nat := do
  oneBit 64 (← inWord (2 * (← inWord (levels + 1))))

/-- Where a level begins. -/
def levelOffsetWord (l : Layout) (level : Nat) : Except Error Nat := do
  let all ← doubled l.exponent
  let above ← doubled (← minus l.exponent level)
  return (← minus all above) / 3

/-- Where the one cell of the last level is. -/
def totalOffsetWord (l : Layout) : Except Error Nat := l.levelOffsetWord l.exponent

/-- Where the densities begin. -/
def pdfOffsetWord (l : Layout) : Except Error Nat := do
  return (← minus (← doubled l.exponent) 1) / 3

/-- How long a table is. -/
def lengthWord (l : Layout) : Except Error Nat := do
  let r ← l.resolutionWord
  inLongWord ((← l.pdfOffsetWord) + (← inLongWord (r * r)))

/-- The number of a cell in a square with so many cells a side. -/
def cellWord (resolution x y : Nat) : Except Error Nat := do
  inWord ((← inWord (y * resolution)) + x)

end Layout

/-! ## Runs -/

/-- Something that has been read: the value of a cell of a level, or the density of a cell. -/
inductive Access where
  | value (level x y place : Nat)
  | density (x y place : Nat)

/-- What reads tables, and notes what it has read. -/
abbrev Reading := StateT (List Access) (Except Error)

section
variable {α : Type}

/-- The element at a place. -/
def readPlace (data : Array α) (place : Nat) (access : Access) : Reading α := do
  modify (· ++ [access])
  match data[place]? with
  | some w => return w
  | none => throw .outOfBounds

namespace Table

/-- The sum over a cell of a level. -/
def readValue (t : Table α) (level x y : Nat) : Reading α := do
  let r ← t.layout.levelResolutionWord level
  let place ← inLongWord ((← t.layout.levelOffsetWord level) + (← Layout.cellWord r x y))
  readPlace t.data place (.value level x y place)

/-- The density of a cell. -/
def readDensity (t : Table α) (x y : Nat) : Reading α := do
  let r ← t.layout.resolutionWord
  let place ← inLongWord ((← t.layout.pdfOffsetWord) + (← Layout.cellWord r x y))
  readPlace t.data place (.density x y place)

/-- The four cells at a level that a cell of the next level consists of. -/
def readBlock (t : Table α) (level x y : Nat) : Reading (Block α) := do
  let x ← inWord (2 * x)
  let y ← inWord (2 * y)
  let right ← inWord (x + 1)
  let below ← inWord (y + 1)
  return ⟨← t.readValue level x y, ← t.readValue level right y, ← t.readValue level x below,
    ← t.readValue level right below⟩

section
variable [Add α] [Sub α] [Div α] [LT α] [DecidableLT α] [OfNat α 0] [OfNat α 1] [Scalar α]

/-- Goes down to a level from the next one. -/
def readDescend (t : Table α) (level : Nat) (c : Cursor α) : Reading (Cursor α) := do
  let q ← t.readBlock level c.x c.y
  let (right, u) := choose c.u q.left
  let (bottom, v) := choose c.v (q.top right)
  return ⟨← inWord (2 * c.x + right.toNat), ← inWord (2 * c.y + bottom.toNat), keepBelowOne u,
    keepBelowOne v⟩

/-- Goes down from a level to the cells. -/
def readDescendFrom (t : Table α) : Nat → Cursor α → Reading (Cursor α)
  | 0, c => return c
  | level + 1, c => do t.readDescendFrom level (← t.readDescend level c)

end

/-- A direction and its density, chosen by two numbers. -/
def readSample (t : Table Float32) (u v : Float32) : Reading (Vec3 Float32 × Float32) := do
  let c ← t.readDescendFrom t.layout.exponent ⟨0, 0, u, v⟩
  let r := Float32.ofNat (← t.layout.resolutionWord)
  let direction := toSphere ((Float32.ofNat c.x + c.u) / r) ((Float32.ofNat c.y + c.v) / r)
  return (direction, ← t.readDensity c.x c.y)

/-- The density with which a direction is chosen. -/
def readPdf (t : Table Float32) (d : Vec3 Float32) : Reading Float32 := do
  let r ← t.layout.resolutionWord
  let last ← minus r 1
  let (u, v) := toSquare d
  let cell (u : Float32) := min (u * Float32.ofNat r).toUInt32.toNat last
  t.readDensity (cell u) (cell v)

end Table

end

end Candela.Environment
