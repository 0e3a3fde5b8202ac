/-!
# Dispatch grids

Kernels run in groups of 64 threads. The groups are laid out in rows, so that no side of the grid is
too long for a device; a thread at column `x` of row `y` works on index `y * (64 * groups per row) +
x`, and does nothing if there is no such index.
-/

namespace Candela.Frame

/-- Threads in a group. -/
def groupSize : Nat := 64

/-- The most groups in a row. -/
def maxGroupsX : Nat := 32768

/-- A quotient rounded up. -/
def divUp (a b : Nat) : Nat := (a + b - 1) / b

/-- A grid of groups. -/
structure Grid where
  x : Nat
  y : Nat
  z : Nat
  deriving DecidableEq

namespace Grid

/-- Bytes of a grid in a buffer: three words. -/
def bytes : Nat := 12

/-- The grid for a number of indices; none for no index. -/
def forCount (count : Nat) : Grid :=
  let groups := divUp count groupSize
  ⟨min groups maxGroupsX, divUp groups maxGroupsX, 1⟩

/-- How many groups there are. -/
def groups (g : Grid) : Nat := g.x * g.y * g.z

/-- How many threads there are. -/
def threads (g : Grid) : Nat := g.groups * groupSize

/-- The index that a thread works on. -/
def index (g : Grid) (x y : Nat) : Nat := y * (g.x * groupSize) + x

end Grid

end Candela.Frame
