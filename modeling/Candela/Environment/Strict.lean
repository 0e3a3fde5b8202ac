import Candela.Environment.Table

/-!
# Sampling with checks

Sampling an importance table (`Table.path`, `Table.sample`) with every step checked: nothing comes
out where a cell is outside the table, where something is divided by zero, or where the result of an
operation is no number.
-/

namespace Candela.Environment

/-! ## Numbers -/

/-- A number, nothing where it is none. -/
def number? (x : Float32) : Option Float32 := if x.isNaN then none else some x

/-- A quotient that is a number, nothing where the divisor is zero. -/
def quotient? (x y : Float32) : Option Float32 :=
  if y < 0 ∨ 0 < y then number? (x / y) else none

/-- A share of a whole that is not zero, and a half otherwise. -/
def share? (part whole : Float32) : Option Float32 :=
  if 0 < whole then quotient? part whole else quotient? 1 (1 + 1)

/-- Chooses one of two halves and stretches what is left of the number. -/
def choose? (u p : Float32) : Option (Bool × Float32) :=
  if u < p then do
    let u ← quotient? u p
    return (false, u)
  else do
    let rest ← number? (u - p)
    let width ← number? (1 - p)
    let u ← quotient? rest width
    return (true, u)

/-! ## Blocks -/

namespace Block

/-- The probability of the left half. -/
def left? (q : Block Float32) : Option Float32 := do
  let column ← number? (q.a + q.c)
  let upper ← number? (q.a + q.b)
  let three ← number? (upper + q.c)
  let sum ← number? (three + q.d)
  share? column sum

/-- The probability of the upper cell in the left or the right half. -/
def top? (q : Block Float32) (right : Bool) : Option Float32 :=
  if right then do
    let column ← number? (q.b + q.d)
    share? q.b column
  else do
    let column ← number? (q.a + q.c)
    share? q.a column

end Block

namespace Table

/-- The sum over a cell of a level, if it is in the table. -/
def value? (t : Table Float32) (level x y : Nat) : Option Float32 :=
  t.data[t.layout.cell level x y]?.bind number?

/-- The four cells at a level that a cell of the next level consists of. -/
def block? (t : Table Float32) (level x y : Nat) : Option (Block Float32) := do
  let a ← t.value? level (2 * x) (2 * y)
  let b ← t.value? level (2 * x + 1) (2 * y)
  let c ← t.value? level (2 * x) (2 * y + 1)
  let d ← t.value? level (2 * x + 1) (2 * y + 1)
  return ⟨a, b, c, d⟩

/-! ## Paths -/

/-- Goes down to a level from the next one. -/
def descend? (t : Table Float32) (level : Nat) (c : Cursor Float32) :
    Option (Cursor Float32) := do
  let q ← t.block? level c.x c.y
  let column ← choose? c.u (← q.left?)
  let row ← choose? c.v (← q.top? column.1)
  return ⟨2 * c.x + column.1.toNat, 2 * c.y + row.1.toNat, keepBelowOne column.2,
    keepBelowOne row.2⟩

/-- Goes down from a level to the cells. -/
def descendFrom? (t : Table Float32) : Nat → Cursor Float32 → Option (Cursor Float32)
  | 0, c => some c
  | level + 1, c => t.descend? level c >>= t.descendFrom? level

/-- The path of two numbers from the whole square to a cell. -/
def path? (t : Table Float32) (u v : Float32) : Option (Cursor Float32) :=
  t.descendFrom? t.layout.exponent ⟨0, 0, u, v⟩

/-- The point of the square at the end of a path. -/
def point? (t : Table Float32) (c : Cursor Float32) : Option (Float32 × Float32) := do
  let x ← number? (Float32.ofNat c.x + c.u)
  let y ← number? (Float32.ofNat c.y + c.v)
  let u ← quotient? x (Float32.ofNat t.layout.resolution)
  let v ← quotient? y (Float32.ofNat t.layout.resolution)
  return (u, v)

end Table

end Candela.Environment
