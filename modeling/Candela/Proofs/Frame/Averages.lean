import Mathlib
import Candela.Frame.Statistics

/-!
# Averages over intervals

Of the reports since the last average, an accumulator holds the column sums and nothing else
(`Accumulator.ofReports`). So it answers a whole sequence of reports by one average after every
interval, each of the reports of that interval alone (`Accumulator.pushAll_start`): a column's mean
is its exact sum over the number of reports, a report that is too short counts as zero, and there
are as many columns as the longest report has. The sums of an interval of words fit 64 bits
(`Accumulator.sum_lt_of_words`).
-/

namespace Candela.Frame

/-! ## Columns -/

/-- The sum of a column; a list that is too short counts as zero. -/
def columnSum (ls : List (List Nat)) (i : Nat) : Nat := (ls.map (·.getD i 0)).sum

/-- The length of the longest list. -/
def longest (ls : List (List Nat)) : Nat := (ls.map List.length).foldr max 0

/-- The sums of all columns. -/
def columnSums (ls : List (List Nat)) : List Nat := (List.range (longest ls)).map (columnSum ls)

variable {ls : List (List Nat)} {xs ys l : List Nat} {i n : Nat}

theorem columnSum_concat : columnSum (ls ++ [l]) i = columnSum ls i + l.getD i 0 := by
  simp [columnSum]

theorem longest_concat : longest (ls ++ [l]) = max (longest ls) l.length := by
  induction ls with
  | nil => simp [longest]
  | cons l' ls ih =>
    simp only [longest, List.cons_append, List.map_cons, List.foldr_cons] at ih ⊢
    rw [ih, max_assoc]

theorem length_le_longest (h : l ∈ ls) : l.length ≤ longest ls := by
  induction ls with
  | nil => cases h
  | cons l' ls ih =>
    rcases List.mem_cons.1 h with rfl | h
    · exact le_max_left _ _
    · exact (ih h).trans (le_max_right _ _)

/-- There is nothing in a column that no list reaches. -/
theorem columnSum_eq_zero (h : longest ls ≤ i) : columnSum ls i = 0 := by
  refine List.sum_eq_zero fun v hv => ?_
  obtain ⟨l, hl, rfl⟩ := List.mem_map.1 hv
  exact List.getD_eq_default _ _ ((length_le_longest hl).trans h)

theorem length_columnSums : (columnSums ls).length = longest ls := by simp [columnSums]

theorem getD_columnSums : (columnSums ls).getD i 0 = columnSum ls i := by
  rcases Nat.lt_or_ge i (longest ls) with h | h
  · simp [columnSums, List.getD_eq_getElem?_getD, h]
  · rw [List.getD_eq_default _ _ (length_columnSums.trans_le h), columnSum_eq_zero h]

theorem length_addLists : (addLists xs ys).length = max xs.length ys.length := by
  fun_induction addLists xs ys with
  | case1 ys => simp
  | case2 xs => simp
  | case3 x xs y ys ih => simp [ih, Nat.succ_max_succ]

theorem getD_addLists : (addLists xs ys).getD i 0 = xs.getD i 0 + ys.getD i 0 := by
  fun_induction addLists xs ys generalizing i with
  | case1 ys => simp
  | case2 xs => simp
  | case3 x xs y ys ih =>
    cases i with
    | zero => rfl
    | succ i => exact ih

/-- Lists of the same length are the same if all their numbers are. -/
theorem eq_of_getD_eq (hlength : xs.length = ys.length) (h : ∀ i, xs.getD i 0 = ys.getD i 0) :
    xs = ys :=
  List.ext_getElem hlength fun i hx hy => by
    simpa [List.getD_eq_getElem?_getD, hx, hy] using h i

/-- Adding a list to the sums gives the sums with that list. -/
theorem addLists_columnSums : addLists (columnSums ls) l = columnSums (ls ++ [l]) := by
  refine eq_of_getD_eq ?_ fun i => ?_
  · rw [length_addLists, length_columnSums, length_columnSums, longest_concat]
  · rw [getD_addLists, getD_columnSums, getD_columnSums, columnSum_concat]

/-- A sum of words fits two words, as long as their number fits one. -/
theorem columnSum_lt (hwords : ∀ l ∈ ls, ∀ v ∈ l, v < wordValues) (hls : ls.length < wordValues) :
    columnSum ls i < wordValues * wordValues := by
  have entry : ∀ v ∈ ls.map (·.getD i 0), v ≤ wordValues - 1 := by
    intro v hv
    obtain ⟨l, hl, rfl⟩ := List.mem_map.1 hv
    rcases Nat.lt_or_ge i l.length with h | h
    · rw [List.getD_eq_getElem _ _ h]
      exact Nat.le_sub_one_of_lt (hwords l hl _ (List.getElem_mem h))
    · rw [List.getD_eq_default _ _ h]
      exact Nat.zero_le _
  have total := List.sum_le_card_nsmul _ _ entry
  rw [List.length_map, smul_eq_mul] at total
  refine total.trans_lt ?_
  exact Nat.mul_lt_mul'' hls (Nat.sub_lt (by decide) Nat.one_pos)

/-! ## Accumulators -/

/-- The averages of some reports, column by column. -/
def Average.ofReports (reports : List Report) : Average :=
  let means (ls : List (List Nat)) : List Float :=
    (List.range (longest ls)).map fun i => Float.ofNat (columnSum ls i) / Float.ofNat ls.length
  { frames := reports.length
    rays := means (reports.map Report.rays)
    shadowRays := means (reports.map Report.shadowRays)
    nanoseconds := (reports.map Report.nanoseconds).sum / reports.length }

namespace Accumulator

variable {pending reports : List Report} {r : Report}

/-- The sums over some reports. -/
def ofReports (n : Nat) (reports : List Report) : Accumulator where
  interval := n
  frames := reports.length
  rays := columnSums (reports.map Report.rays)
  shadowRays := columnSums (reports.map Report.shadowRays)
  nanoseconds := (reports.map Report.nanoseconds).sum

theorem start_eq_ofReports (interval : Nat) : start interval = ofReports (max interval 1) [] := rfl

theorem add_ofReports : (ofReports n reports).add r = ofReports n (reports ++ [r]) := by
  simp [add, ofReports, addLists_columnSums]

theorem average_ofReports : (ofReports n reports).average = .ofReports reports := by
  simp [average, Average.ofReports, ofReports, columnSums, mean, Function.comp_def]

variable (pending r) in
/-- One more report: it is held, or it completes an interval, of which nothing is held then. -/
theorem push_ofReports (hn : 0 < n) : (ofReports n pending).push r =
    if pending.length + 1 < n then (none, ofReports n (pending ++ [r]))
    else (some (.ofReports (pending ++ [r])), ofReports n []) := by
  have frames : (ofReports n (pending ++ [r])).frames = pending.length + 1 := List.length_append
  have fresh : start (ofReports n (pending ++ [r])).interval = ofReports n [] := by
    rw [start_eq_ofReports]
    exact congrArg (ofReports · []) (Nat.max_eq_left hn)
  rw [push, add_ofReports, frames, average_ofReports, fresh]
  rfl

/-- The answers to a sequence of reports, and what is held after them. -/
def pushAll (a : Accumulator) : List Report → List (Option Average) × Accumulator
  | [] => ([], a)
  | r :: reports =>
    let rest := (a.push r).2.pushAll reports
    ((a.push r).1 :: rest.1, rest.2)

/-- The answer after a number of reports, for intervals of `n`: the averages of the last `n`
reports where an interval ends. -/
def answerAfter (n : Nat) (reports : List Report) (count : Nat) : Option Average :=
  if n ∣ count then some (.ofReports ((reports.take count).drop (count - n))) else none

/-- The answers after every one of some reports, for intervals of `n`. -/
def answers (n : Nat) (reports : List Report) : List (Option Average) :=
  (List.range reports.length).map fun k => answerAfter n reports (k + 1)

/-- The reports after the last interval that is over. -/
def unfinished (n : Nat) (reports : List Report) : List Report :=
  reports.drop (reports.length / n * n)

/-- Intervals that are over are forgotten. -/
theorem answerAfter_append {count : Nat} (hdvd : n ∣ pending.length) (hcount : 0 < count) :
    answerAfter n (pending ++ reports) (pending.length + count) = answerAfter n reports count := by
  rw [answerAfter, answerAfter]
  by_cases h : n ∣ count
  · have hle : n ≤ count := Nat.le_of_dvd hcount h
    rw [if_pos h, if_pos ((Nat.dvd_add_right hdvd).2 h), List.take_length_add_append,
      Nat.add_sub_assoc hle, List.drop_length_add_append]
  · rw [if_neg h, if_neg (mt (Nat.dvd_add_right hdvd).1 h)]

theorem unfinished_append (hn : 0 < n) (hlength : pending.length = n) :
    unfinished n (pending ++ reports) = unfinished n reports := by
  rw [unfinished, unfinished, List.length_append, hlength, Nat.add_div_left _ hn, Nat.succ_mul,
    Nat.add_comm, ← hlength, List.drop_length_add_append]

/-- What follows some reports that are held. -/
theorem pushAll_ofReports (hpending : pending.length < n) :
    (ofReports n pending).pushAll reports =
      ((List.range reports.length).map fun k =>
        answerAfter n (pending ++ reports) (pending.length + (k + 1)),
      ofReports n (unfinished n (pending ++ reports))) := by
  induction reports generalizing pending with
  | nil =>
    rw [List.append_nil, unfinished, Nat.div_eq_of_lt hpending, Nat.zero_mul, List.drop_zero]
    rfl
  | cons r reports ih =>
    have step := push_ofReports pending r (Nat.zero_lt_of_lt hpending)
    have held : (pending ++ [r]).length = pending.length + 1 := List.length_append
    have split : pending ++ r :: reports = pending ++ [r] ++ reports := by simp
    rw [pushAll, List.length_cons, List.range_succ_eq_map, List.map_cons, List.map_map, split]
    by_cases hlast : pending.length + 1 < n
    · have early : ¬ n ∣ pending.length + (0 + 1) := fun h =>
        absurd (Nat.le_of_dvd (by omega) h) (by omega)
      rw [if_pos hlast] at step
      rw [step, ih (held.trans_lt hlast), answerAfter, if_neg early, held]
      refine Prod.ext (List.cons_eq_cons.2 ⟨rfl, List.map_congr_left fun k _ => ?_⟩) rfl
      exact congrArg (answerAfter n _) (by omega)
    · obtain rfl : n = (pending ++ [r]).length := by omega
      rw [if_neg hlast] at step
      rw [step, @ih [] (Nat.zero_lt_of_lt hpending), List.nil_append,
        unfinished_append (Nat.zero_lt_of_lt hpending) rfl]
      refine Prod.ext (List.cons_eq_cons.2 ⟨?_, List.map_congr_left fun k _ => ?_⟩) rfl
      · have last : pending.length + (0 + 1) = (pending ++ [r]).length := held.symm
        rw [last, answerAfter, if_pos (dvd_refl _), List.take_left, Nat.sub_self, List.drop_zero]
      · have next : pending.length + ((k + 1) + 1) = (pending ++ [r]).length + (k + 1) := by omega
        show answerAfter _ reports (0 + (k + 1)) = answerAfter _ _ (_ + ((k + 1) + 1))
        rw [next, answerAfter_append (dvd_refl _) (Nat.succ_pos k), Nat.zero_add]

/-- The sums of an interval of words fit 64 bits. -/
theorem sum_lt_of_words {v : Nat} (hn : n < wordValues) (hpending : pending.length ≤ n)
    (hwords : ∀ r ∈ pending, (∀ v ∈ r.rays, v < wordValues) ∧ ∀ v ∈ r.shadowRays, v < wordValues)
    (hv : v ∈ (ofReports n pending).rays ∨ v ∈ (ofReports n pending).shadowRays) :
    v < 2 ^ 64 := by
  have bound (f : Report → List Nat) (hf : ∀ r ∈ pending, ∀ v ∈ f r, v < wordValues)
      (hv : v ∈ columnSums (pending.map f)) : v < wordValues * wordValues := by
    obtain ⟨i, -, rfl⟩ := List.mem_map.1 hv
    refine columnSum_lt (fun l hl => ?_) ?_
    · obtain ⟨r, hr, rfl⟩ := List.mem_map.1 hl
      exact hf r hr
    · rw [List.length_map]
      exact hpending.trans_lt hn
  rcases hv with hv | hv
  · exact bound _ (fun r hr => (hwords r hr).1) hv
  · exact bound _ (fun r hr => (hwords r hr).2) hv

end Accumulator

end Candela.Frame
