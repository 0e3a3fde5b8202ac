import Candela.Error
import Candela.Power

/-!
# Layout of importance tables

An importance table covers a square of `2 ^ k` by `2 ^ k` cells. It holds the importance of every
cell, then the sums over blocks of two by two cells, of four by four, and so on up to the whole
square, and last the density of every cell:

```text
[ level 0 | level 1 | ... | level k (one cell) | densities ]
```

Cells are numbered row by row. The level sizes are powers of four, so the offsets have closed forms.
-/

namespace Candela.Environment

/-- The layout of a table with `2 ^ exponent` cells a side. -/
structure Layout where
  exponent : Nat
  deriving DecidableEq

namespace Layout

/-- The greatest exponent with which all offsets are words of 64 bits. -/
def maxExponent : Nat := 30

/-- The layout for an exponent. -/
def ofExponent (exponent : Nat) : Except Error Layout :=
  if exponent ≤ maxExponent then .ok ⟨exponent⟩ else .error .overflow

/-- Cells a side. -/
def resolution (l : Layout) : Nat := 2 ^ l.exponent

/-- Cells a side at a level. -/
def levelResolution (l : Layout) (level : Nat) : Nat := 2 ^ (l.exponent - level)

/-- Where a level begins. -/
def levelOffset (l : Layout) (level : Nat) : Nat :=
  (4 ^ (l.exponent + 1) - 4 ^ (l.exponent - level + 1)) / 3

/-- Where the one cell of the last level is, which holds the sum over the whole square. -/
def totalOffset (l : Layout) : Nat := l.levelOffset l.exponent

/-- Where the densities begin. -/
def pdfOffset (l : Layout) : Nat := (4 ^ (l.exponent + 1) - 1) / 3

/-- How long a table is. -/
def length (l : Layout) : Nat := l.pdfOffset + 4 ^ l.exponent

/-- Where a cell of a level is. -/
def cell (l : Layout) (level x y : Nat) : Nat :=
  l.levelOffset level + (y * l.levelResolution level + x)

/-- Where the density of a cell is. -/
def pdfCell (l : Layout) (x y : Nat) : Nat := l.pdfOffset + (y * l.resolution + x)

end Layout

end Candela.Environment
