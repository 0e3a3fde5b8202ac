import Candela.Proofs.Frame.Layout
import Mathlib.Data.UInt
import Mathlib.Tactic.Linarith

/-!
# The threads of a grid

A thread stands in a column and a row, and its index counts the threads row by row. So in every grid
the indices are those below the number of threads, and each is the index of one thread
(`Grid.exists_index_eq`, `Grid.index_injective`). A grid for a count has one row that is not full,
or full rows only (`Grid.forCount_of_le`, `Grid.forCount_of_lt`); either way it is small enough for
a device, has no row too many, and a kernel that computes an index in words computes the index
(`Grid.forCount_serves`).
-/

namespace Candela.Frame

/-- The most groups that any device takes on one side of a grid. -/
def maxGroupsSide : Nat := 65535

namespace Grid

variable {g : Grid} {count x y x' y' : Nat}

/-! ## Threads and indices -/

/-- Whether a grid has a thread in a column and a row. -/
def HasThread (g : Grid) (x y : Nat) : Prop := x < g.x * groupSize ∧ y < g.y

/-- The index of a thread as kernels compute it, in words. -/
def word (g : Grid) (x y : Nat) : UInt32 :=
  y.toUInt32 * g.x.toUInt32 * groupSize.toUInt32 + x.toUInt32

/-- The threads of a grid stand in its rows. -/
theorem threads_eq (h : g.z = 1) : g.threads = g.y * (g.x * groupSize) := by
  simp only [threads, groups, h]
  ring

/-- The index of a thread tells its row. -/
theorem index_div (h : g.HasThread x y) : g.index x y / (g.x * groupSize) = y := by
  rw [index, Nat.add_comm, Nat.add_mul_div_right _ _ (Nat.zero_lt_of_lt h.1), Nat.div_eq_of_lt h.1,
    Nat.zero_add]

/-- The index of a thread tells its column. -/
theorem index_mod (h : g.HasThread x y) : g.index x y % (g.x * groupSize) = x := by
  rw [index, Nat.add_comm, Nat.add_mul_mod_self_right, Nat.mod_eq_of_lt h.1]

/-- No two threads have the same index. -/
theorem index_injective (h : g.HasThread x y) (h' : g.HasThread x' y')
    (same : g.index x y = g.index x' y') : x = x' ∧ y = y' :=
  ⟨by rw [← index_mod h, same, index_mod h'], by rw [← index_div h, same, index_div h']⟩

theorem index_lt (h : g.HasThread x y) : g.index x y < g.y * (g.x * groupSize) :=
  calc g.index x y < y * (g.x * groupSize) + g.x * groupSize := Nat.add_lt_add_left h.1 _
    _ = (y + 1) * (g.x * groupSize) := (Nat.succ_mul ..).symm
    _ ≤ g.y * (g.x * groupSize) := Nat.mul_le_mul_right _ h.2

/-- Every number below that of the threads is the index of one. -/
theorem exists_index_eq {i : Nat} (hi : i < g.y * (g.x * groupSize)) :
    ∃ x y, g.HasThread x y ∧ g.index x y = i := by
  have row : 0 < g.x * groupSize := Nat.pos_of_lt_mul_left hi
  refine ⟨i % (g.x * groupSize), i / (g.x * groupSize), ⟨Nat.mod_lt _ row, ?_⟩, ?_⟩
  · exact Nat.div_lt_of_lt_mul (Nat.mul_comm g.y _ ▸ hi)
  · rw [index, Nat.mul_comm]
    exact Nat.div_add_mod i _

/-- Computing an index in words loses nothing as long as the number of threads is at most that of
the values of a word. -/
theorem toNat_word (h : g.HasThread x y) (hthreads : g.y * (g.x * groupSize) ≤ wordValues) :
    (g.word x y).toNat = g.index x y := by
  have inside : g.index x y < 2 ^ 32 := Nat.lt_of_lt_of_le (index_lt h) hthreads
  have flat : y * g.x * groupSize + x = g.index x y := by rw [index, Nat.mul_assoc]
  simp only [word, UInt32.toNat_add, UInt32.toNat_mul, Nat.toUInt32_eq, UInt32.toNat_ofNat',
    Nat.mod_mul_mod, Nat.mul_mod_mod, Nat.add_mod_mod, Nat.mod_add_mod, flat]
  exact Nat.mod_eq_of_lt inside

/-! ## The grid for a count -/

theorem divUp_mul_lt (a : Nat) {b : Nat} (hb : 0 < b) : divUp a b * b < a + b := by
  have := Nat.div_mul_le_self (a + b - 1) b
  simp only [divUp]
  omega

theorem divUp_eq_one {a b : Nat} (hpos : 0 < a) (h : a ≤ b) : divUp a b = 1 :=
  Nat.div_eq_of_lt_le (by omega) (by omega)

theorem divUp_pos {a b : Nat} (hpos : 0 < a) (hb : 0 < b) : 0 < divUp a b :=
  Nat.div_pos (by omega) hb

/-- Where the groups fit in a row, there is one row. -/
theorem forCount_of_le (hpos : 0 < count) (h : divUp count groupSize ≤ maxGroupsX) :
    forCount count = ⟨divUp count groupSize, 1, 1⟩ := by
  have rows : divUp (divUp count groupSize) maxGroupsX = 1 :=
    divUp_eq_one (divUp_pos hpos (by decide)) h
  simp only [forCount, rows, Nat.min_eq_left h]

/-- Where they do not, there are full rows only. -/
theorem forCount_of_lt (h : maxGroupsX < divUp count groupSize) :
    forCount count = ⟨maxGroupsX, divUp (divUp count groupSize) maxGroupsX, 1⟩ := by
  simp only [forCount, Nat.min_eq_right h.le]

example : forCount (32768 * 64 + 1) = ⟨32768, 2, 1⟩ := by decide

/-- The threads of a grid for a count fill up its last row at most. -/
theorem threads_forCount_lt (hpos : 0 < count) :
    (forCount count).threads < count + groupSize * (forCount count).x := by
  have last := divUp_mul_lt count (b := groupSize) (by decide)
  rcases Nat.lt_or_ge maxGroupsX (divUp count groupSize) with h | h
  · have row := divUp_mul_lt (divUp count groupSize) (b := maxGroupsX) (by decide)
    rw [forCount_of_lt h, threads_eq rfl]
    simp only [groupSize, maxGroupsX] at *
    linarith
  · rw [forCount_of_le hpos h, threads_eq rfl]
    simp only [groupSize] at *
    omega

/-- The indices of a grid for a word are words. -/
theorem threads_forCount_le (h : count < wordValues) :
    (forCount count).y * ((forCount count).x * groupSize) ≤ wordValues := by
  simp only [forCount, divUp, groupSize, maxGroupsX, wordValues] at *
  rcases Nat.le_total ((count + 64 - 1) / 64) 32768 with few | many
  · rw [Nat.min_eq_left few]
    have : ((count + 64 - 1) / 64 + 32768 - 1) / 32768 ≤ 1 := by omega
    exact (Nat.mul_le_mul_right _ this).trans (by omega)
  · rw [Nat.min_eq_right many]
    omega

/-- A grid serves a count if devices take it, its threads stand for the indices from zero on without
a gap, every one for its own, in words as well, all indices below the count are among them, and no
row is in excess. -/
structure Serves (g : Grid) (count : Nat) : Prop where
  x_le : g.x ≤ maxGroupsX
  y_le : g.y ≤ maxGroupsSide
  flat : g.z = 1
  injective : ∀ {x y x' y'}, g.HasThread x y → g.HasThread x' y' →
    g.index x y = g.index x' y' → x = x' ∧ y = y'
  index_lt : ∀ {x y}, g.HasThread x y → g.index x y < wordValues
  word_eq : ∀ {x y}, g.HasThread x y → (g.word x y).toNat = g.index x y
  covers : ∀ i < count, ∃ x y, g.HasThread x y ∧ g.index x y = i
  excess : 0 < count → g.threads < count + groupSize * g.x
  nothing : count = 0 → g.threads = 0 ∧ ∀ x y, ¬g.HasThread x y

/-- The grid for a word serves it. -/
theorem forCount_serves (h : count < wordValues) : (forCount count).Serves count where
  x_le := Nat.min_le_right ..
  y_le := by
    simp only [forCount, divUp, groupSize, maxGroupsX, maxGroupsSide, wordValues] at *
    omega
  flat := rfl
  injective := index_injective
  index_lt thread := Nat.lt_of_lt_of_le (Grid.index_lt thread) (threads_forCount_le h)
  word_eq thread := toNat_word thread (threads_forCount_le h)
  covers i hi := exists_index_eq <| by
    rw [← threads_eq rfl]
    exact Nat.lt_of_lt_of_le hi (le_threads_forCount count)
  excess := threads_forCount_lt
  nothing hzero := by
    subst hzero
    exact ⟨rfl, fun x y thread => Nat.not_lt_zero x thread.1⟩

/-- The last index of all is served, by the last thread of the longest grid. -/
theorem forCount_serves_last :
    wordValues - 1 < wordValues ∧ (forCount (wordValues - 1)).Serves (wordValues - 1) :=
  ⟨by decide, forCount_serves (by decide)⟩

end Grid

end Candela.Frame
