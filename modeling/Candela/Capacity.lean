import Candela.Error
import Candela.Power

/-!
# Capacities

Counts are natural numbers, and computing with them is exact. What holds a count has an end, though:
the device counts in words of 32 bits, and an array has less than `2 ^ 63` bytes. A count beyond
that is an error (`inWord`, `canStore`) and never becomes a smaller count.
-/

namespace Candela

/-! ## Words -/

/-- How many values a word has. -/
def wordValues : Nat := 2 ^ 32

/-- A count that a word has to hold. -/
def inWord (n : Nat) : Except Error Nat := if n < wordValues then .ok n else .error .overflow

/-- A word holds a count as it is. -/
@[simp] theorem inWord_eq_ok {n m : Nat} : inWord n = .ok m ↔ n < wordValues ∧ n = m := by
  unfold inWord
  split <;> simp <;> omega

/-- A word fails to hold a count only because the count is too large. -/
@[simp] theorem inWord_eq_error {n : Nat} {e : Error} :
    inWord n = .error e ↔ wordValues ≤ n ∧ e = .overflow := by
  unfold inWord
  split
  next h => simp [Nat.not_le.2 h]
  next h => simp [Nat.not_lt.1 h, eq_comm]

/-! ## Arrays -/

/-- What arrays are made of. -/
class Stored (α : Type) where
  /-- Bytes of an element. -/
  bytes : Nat

instance : Stored UInt32 := ⟨4⟩

/-- The most bytes of an array. -/
def maxBytes : Nat := 2 ^ 63 - 1

/-- Whether an array can have some number of elements. -/
def canStore (α : Type) [Stored α] (count : Nat) : Bool := count * Stored.bytes α ≤ maxBytes

end Candela
