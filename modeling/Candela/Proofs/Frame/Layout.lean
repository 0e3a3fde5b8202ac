import Candela.Proofs.Frame.Device
import Candela.Proofs.Result
import Mathlib.Tactic.Ring

/-!
# Counters, passes and grids

Where the numbers of a plan meet: the counters number a frame's counts without a gap
(`Counters.indices`), the block of a pass stands at its index (`passes_getElem?`) and is made of
words (`Pass.word_lt_of_mem_passes`), and a grid for a count has a thread for every index below it,
and one thread only (`Grid.indices_forCount`, `Grid.le_threads_forCount`).
-/

namespace Candela.Frame

/-! ## Counters -/

namespace Counters

variable {c : Counters}

/-- The indices of all counters, kind by kind. -/
def indices (c : Counters) : List Nat :=
  (c.depths ++ [c.maxDepth]).map c.rays ++ c.depths.map c.shadowRays ++ c.depths.map c.terminated

theorem indices_eq_range (c : Counters) : c.indices = List.range c.length := by
  have length : c.length = c.maxDepth + 1 + c.maxDepth + c.maxDepth := by
    simp only [Counters.length]; omega
  have terminated : c.depths.map c.terminated
      = c.depths.map fun d => c.maxDepth + 1 + c.maxDepth + d :=
    List.map_congr_left fun d _ => by simp only [Counters.terminated]; omega
  have rays : (c.depths ++ [c.maxDepth]).map c.rays = List.range (c.maxDepth + 1) := by
    rw [List.range_succ]
    exact List.map_id _
  rw [length, List.range_add, List.range_add, indices, rays, terminated]
  rfl

/-- A frame has counters only if their number is a word. -/
theorem length_lt_of_ofDepth {maxDepth : Nat} (h : ofDepth maxDepth = .ok c) :
    c.length < wordValues := by
  obtain ⟨_, hword, hc⟩ := bind_eq_ok.1 h
  cases hc
  exact (inWord_eq_ok.mp hword).1

theorem shadowRays_ne_rays {d e : Nat} (he : e ≤ c.maxDepth) : c.shadowRays d ≠ c.rays e := by
  simp only [shadowRays, rays]; omega

theorem terminated_ne_rays {d e : Nat} (he : e ≤ c.maxDepth) : c.terminated d ≠ c.rays e := by
  simp only [terminated, rays]; omega

theorem shadowRays_ne_terminated {d e : Nat} (hd : d < c.maxDepth) :
    c.shadowRays d ≠ c.terminated e := by
  simp only [shadowRays, terminated]; omega

end Counters

/-! ## Passes -/

theorem getElem?_flatMap_pair {α β : Type} (f g : α → β) (xs : List α) (i : Nat) :
    (xs.flatMap fun x => [f x, g x])[2 * i]? = xs[i]?.map f ∧
      (xs.flatMap fun x => [f x, g x])[2 * i + 1]? = xs[i]?.map g := by
  induction xs generalizing i with
  | nil => simp
  | cons x xs ih =>
    cases i with
    | zero => simp
    | succ i => simpa [Nat.mul_add] using ih i

/-- The block at the index of a pass is that pass's. -/
theorem passes_getElem? {c : Counters} {capacity depth : Nat} (w : Wavefront)
    (hdepth : depth < c.maxDepth) :
    (passes c capacity)[passIndex depth w]? = some (passOf c capacity depth w) := by
  have pair := getElem?_flatMap_pair (passOf c capacity · .rays) (passOf c capacity · .shadowRays)
    c.depths depth
  have here : c.depths[depth]? = some depth := List.getElem?_range hdepth
  rw [here] at pair
  cases w with
  | rays => exact pair.1
  | shadowRays => exact pair.2

@[simp] theorem passOf_counter (c : Counters) (capacity depth : Nat) (w : Wavefront) :
    (passOf c capacity depth w).counter = c.wavefront w depth := by
  cases w <;> rfl

theorem passIndex_lt {c : Counters} {depth : Nat} (w : Wavefront) (hdepth : depth < c.maxDepth) :
    passIndex depth w < 2 * c.maxDepth := by
  cases w <;> simp only [passIndex] <;> omega

/-- The two halves of the ray buffer are no longer than a word tells. -/
theorem mod_two_mul_le (d capacity : Nat) : d % 2 * capacity ≤ capacity := by
  rcases Nat.mod_two_eq_zero_or_one d with h | h <;> simp [h]

/-- What a pass is told are words, if the number of the counters is one and a slot of the ray buffer
is told by one. -/
theorem Pass.word_lt_of_mem_passes {c : Counters} {capacity : Nat} {p : Pass} {word : Nat}
    (hlength : c.length < wordValues) (hcapacity : 2 * capacity < wordValues)
    (hp : p ∈ passes c capacity) (hword : word ∈ p.words) : word < wordValues := by
  have last : (if p.isLast then 1 else 0) ≤ 1 := by split <;> decide
  simp only [Counters.length] at hlength
  simp only [passes, Counters.depths, List.mem_flatMap, List.mem_range, List.mem_cons,
    List.not_mem_nil, or_false] at hp
  simp only [Pass.words, List.mem_cons, List.not_mem_nil, or_false] at hword
  obtain ⟨d, hd, hp⟩ := hp
  have current := mod_two_mul_le d capacity
  have next := mod_two_mul_le (d + 1) capacity
  rcases hword with rfl | rfl | rfl | rfl | rfl | rfl
  case inr.inr.inr.inr.inr => omega
  all_goals
    rcases hp with rfl | rfl <;>
      simp only [passOf, Counters.rays, Counters.shadowRays, passIndex] <;> omega

/-! ## Grids -/

namespace Grid

theorem le_divUp_mul (a : Nat) {b : Nat} (hb : 0 < b) : a ≤ divUp a b * b := by
  have := Nat.div_add_mod (a + b - 1) b
  have := Nat.mod_lt (a + b - 1) hb
  simp only [divUp, Nat.mul_comm _ b]
  omega

/-- A grid for a count has that many threads at least. -/
theorem le_threads_forCount (count : Nat) : count ≤ (forCount count).threads := by
  have groups := le_divUp_mul count (b := groupSize) (by decide)
  have rows := le_divUp_mul (divUp count groupSize) (b := maxGroupsX) (by decide)
  have all : divUp count groupSize
      ≤ min (divUp count groupSize) maxGroupsX * divUp (divUp count groupSize) maxGroupsX := by
    rcases Nat.le_total (divUp count groupSize) maxGroupsX with h | h
    · rw [Nat.min_eq_left h]
      rcases Nat.eq_zero_or_pos (divUp count groupSize) with zero | pos
      · simp [zero]
      · refine Nat.le_mul_of_pos_right _ (Nat.div_pos ?_ (by decide))
        omega
    · rwa [Nat.min_eq_right h, Nat.mul_comm]
  simp only [threads, Grid.groups, forCount, Nat.mul_one]
  exact Nat.le_trans groups (Nat.mul_le_mul_right _ all)

theorem flatMap_range_row (rows width : Nat) :
    ((List.range rows).flatMap fun y => (List.range width).map fun x => y * width + x)
      = List.range (rows * width) := by
  induction rows with
  | zero => simp
  | succ rows ih => simp [List.range_succ, ih, Nat.succ_mul, List.range_add]

/-- The threads of a grid for a count have the indices below their number, each once. -/
theorem indices_forCount (count : Nat) :
    (forCount count).indices = List.range (forCount count).threads := by
  have threads : (forCount count).threads
      = (forCount count).y * ((forCount count).x * groupSize) := by
    simp only [threads, Grid.groups, forCount]
    ring
  rw [threads, ← flatMap_range_row]
  simp [indices, forCount, index]

end Grid

end Candela.Frame
