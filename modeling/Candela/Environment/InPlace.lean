import Candela.Environment.Table

/-!
# Importance tables built in place

The table of some importances as three loops over one array. The importances are its beginning; the
sums are written behind them, level by level and row by row, from what has been written before, and
last the densities. Every place that is read or written is looked up first, and a place that is not
there ends the run without an answer.
-/

namespace Candela.Environment.InPlace

variable {α : Type}

/-! ## Loops -/

/-- Puts an element where there is one. -/
def set? (data : Array α) (i : Nat) (a : α) : Option (Array α) :=
  if i < data.size then some (data.setIfInBounds i a) else none

/-- Does something for every number below `n`, in order. -/
def loop? (n : Nat) (body : Nat → Array α → Option (Array α)) (data : Array α) :
    Option (Array α) :=
  (List.range n).foldlM (fun data i => body i data) data

/-! ## Levels -/

section
variable [Add α]

/-- Adds up the four cells that a cell of a level consists of. -/
def sumCell? (l : Layout) (level y x : Nat) (data : Array α) : Option (Array α) := do
  let r := l.levelResolution level
  let first := l.levelOffset (level - 1) + 2 * y * (2 * r) + 2 * x
  let a ← data[first]?
  let b ← data[first + 1]?
  let c ← data[first + 2 * r]?
  let d ← data[first + 2 * r + 1]?
  set? data (l.levelOffset level + y * r + x) (a + b + c + d)

/-- Adds up the cells of a level. -/
def sumLevel? (l : Layout) (level : Nat) (data : Array α) : Option (Array α) :=
  let r := l.levelResolution level
  loop? r (fun y => loop? r fun x => sumCell? l level y x) data

/-- Adds up all levels, one after the other. -/
def sumLevels? (l : Layout) (data : Array α) : Option (Array α) :=
  loop? l.exponent (fun i => sumLevel? l (i + 1)) data

end

/-! ## Tables -/

section
variable [OfNat α 0] [Add α] [Mul α] [Div α] [LT α] [DecidableLT α] [Scalar α]

/-- Puts the density of a cell behind the sums. -/
def putDensity? (l : Layout) (total : α) (i : Nat) (data : Array α) : Option (Array α) := do
  let importance ← data[i]?
  set? data (l.pdfOffset + i)
    (Table.density (l.resolution * l.resolution) total importance)

/-- The table of the importances of all cells, which must be as many as the square has. -/
def build? (l : Layout) (base : Array α) : Option (Array α) := do
  let cells := l.resolution * l.resolution
  if base.size = cells then
    let data ← sumLevels? l (base ++ Array.replicate (l.length - base.size) 0)
    let total ← data[l.totalOffset]?
    loop? cells (putDensity? l total) data
  else none

end

end Candela.Environment.InPlace
