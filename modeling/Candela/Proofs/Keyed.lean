import Mathlib.Data.List.Sort
import Candela.Keyed

/-!
# Maps by their look-ups

A key-ordered map lists its entries in one way only, so it is determined by what its look-ups find
(`ext_get?`). Everything about insertion, removal and membership is said through `get?`; the list of
entries is opened here and nowhere else.
-/

namespace Candela.Keyed

variable {α : Type}

/-- What a look-up finds is an entry, and every entry is found. -/
theorem get?_eq_some_iff {m : Keyed α} {name : String} {v : α} :
    m.get? name = some v ↔ (name, v) ∈ m.entries := by
  obtain ⟨entries, hsorted⟩ := m
  simp only [get?]
  induction entries with
  | nil => simp
  | cons e rest ih =>
    obtain ⟨k, w⟩ := e
    obtain ⟨hhead, hrest⟩ := List.pairwise_cons.1 hsorted
    rw [lookup_cons_eq, List.mem_cons]
    split
    · next heq =>
      subst heq
      have hnot : (name, v) ∉ rest := fun hmem => String.lt_irrefl name (hhead _ hmem)
      simp [hnot, eq_comm]
    · next hne =>
      rw [ih hrest]
      simp [hne]

/-- A value under a new name is one entry more. -/
theorem size_insert_of_notMem {m : Keyed α} {key : String} (h : key ∉ m.keys) (value : α) :
    (m.insert key value).size = m.size + 1 := by
  obtain ⟨entries, hsorted⟩ := m
  simp only [keys, insert, size] at h ⊢
  clear hsorted
  induction entries with
  | nil => rfl
  | cons e rest ih =>
    obtain ⟨k, v⟩ := e
    rw [List.map_cons, List.mem_cons, not_or] at h
    rw [insertEntry, if_neg h.1]
    split
    · rfl
    · rw [List.length_cons, List.length_cons, ih h.2]

/-- Two maps whose look-ups find the same are equal. -/
theorem ext_get? {m m' : Keyed α} (h : ∀ name, m.get? name = m'.get? name) : m = m' := by
  have hmem : ∀ e, e ∈ m.entries ↔ e ∈ m'.entries := by
    rintro ⟨name, v⟩
    rw [← get?_eq_some_iff, ← get?_eq_some_iff, h]
  have : Std.Irrefl fun a b : String × α => a.1 < b.1 := ⟨fun a => String.lt_irrefl a.1⟩
  have : Std.Antisymm fun a b : String × α => a.1 < b.1 :=
    ⟨fun _ _ hab hba => absurd (String.lt_trans hab hba) (String.lt_irrefl _)⟩
  have hentries : m.entries = m'.entries := m.sorted.eq_of_mem_iff m'.sorted hmem
  cases m
  cases m'
  simp_all

/-- A value is listed if and only if it is found under some name. -/
theorem mem_values_iff {m : Keyed α} {v : α} : v ∈ m.values ↔ ∃ name, m.get? name = some v := by
  simp [values, get?_eq_some_iff]

/-- What a look-up in a list of entries finds is one of them. -/
theorem mem_of_lookup {l : List (String × α)} {name : String} {v : α}
    (h : l.lookup name = some v) : (name, v) ∈ l := by
  obtain ⟨before, after, hsplit, -⟩ := List.lookup_eq_some_iff.1 h
  rw [hsplit]
  exact List.mem_append_right _ List.mem_cons_self

/-- After some entries were put into a map, the last one of a name stands there, or what stood there
before. -/
theorem get?_foldl_insert_eq (m : Keyed α) (l : List (String × α)) (name : String) :
    (l.foldl (fun m e => m.insert e.1 e.2) m).get? name =
      (l.reverse.lookup name).or (m.get? name) := by
  induction l generalizing m with
  | nil => rfl
  | cons e rest ih =>
    obtain ⟨key, v⟩ := e
    have hone : [(key, v)].lookup name = if name = key then some v else none :=
      lookup_cons_eq name key v []
    rw [List.foldl_cons, ih, List.reverse_cons, List.lookup_append, Option.or_assoc, hone,
      get?_insert]
    split <;> rfl

/-- What stands in a map after some entries were put into it stood there before or is one of
them. -/
theorem get?_foldl_insert {m : Keyed α} {l : List (String × α)} {name : String} {v : α}
    (h : (l.foldl (fun m e => m.insert e.1 e.2) m).get? name = some v) :
    m.get? name = some v ∨ (name, v) ∈ l := by
  rw [get?_foldl_insert_eq, Option.or_eq_some_iff] at h
  rcases h with hlast | ⟨-, hbefore⟩
  · exact .inr (List.mem_reverse.1 (mem_of_lookup hlast))
  · exact .inl hbefore

/-- What stands in a map that is made of some entries is one of them. -/
theorem mem_of_get?_ofList {l : List (String × α)} {name : String} {v : α}
    (h : (ofList l).get? name = some v) : (name, v) ∈ l := by
  rcases get?_foldl_insert h with hempty | hmem
  · cases hempty
  · exact hmem

/-- A name is listed once, with what is found under it, or not at all. -/
theorem filter_entries (m : Keyed α) (name : String) :
    (m.entries.filter fun e => e.1 = name) = (m.get? name).toList.map fun v => (name, v) := by
  cases hget : m.get? name with
  | none =>
    refine List.filter_eq_nil_iff.2 fun e he heq => ?_
    rw [← of_decide_eq_true heq, get?_eq_some_iff.2 he] at hget
    cases hget
  | some v =>
    obtain ⟨before, after, hsplit⟩ := List.append_of_mem (get?_eq_some_iff.1 hget)
    have hsorted := m.sorted
    rw [hsplit, List.pairwise_append, List.pairwise_cons] at hsorted
    obtain ⟨-, ⟨hafter, -⟩, hbefore⟩ := hsorted
    have hnone : ∀ e ∈ before, ¬ e.1 = name := fun e he heq =>
      String.lt_irrefl _ (heq ▸ hbefore e he _ List.mem_cons_self)
    have hnone' : ∀ e ∈ after, ¬ e.1 = name := fun e he heq =>
      String.lt_irrefl _ (heq ▸ hafter e he)
    rw [hsplit, List.filter_append, List.filter_eq_nil_iff.2 (by simpa using hnone),
      List.filter_cons_of_pos (by simp), List.filter_eq_nil_iff.2 (by simpa using hnone')]
    rfl

/-- Searching the entries from the last one on finds one behind which there is nothing to find. -/
theorem exists_of_findSome?_reverse {β : Type} {m : Keyed α} {f : String × α → Option β} {b : β}
    (h : m.entries.reverse.findSome? f = some b) :
    ∃ e ∈ m.entries, f e = some b ∧ ∀ e' ∈ m.entries, e.1 < e'.1 → f e' = none := by
  obtain ⟨after, e, before, hsplit, hfound, hafter⟩ := List.findSome?_eq_some_iff.1 h
  have hentries : m.entries = before.reverse ++ e :: after.reverse := by
    rw [← List.reverse_reverse m.entries, hsplit]
    simp
  have hsorted := m.sorted
  rw [hentries, List.pairwise_append, List.pairwise_cons] at hsorted
  refine ⟨e, ?_, hfound, fun e' he' hlt => ?_⟩
  · rw [hentries]
    exact List.mem_append_right _ List.mem_cons_self
  · rw [hentries, List.mem_append, List.mem_cons] at he'
    rcases he' with hbefore | rfl | hmem
    · have hgt := hsorted.2.2 e' hbefore e List.mem_cons_self
      exact absurd (String.lt_trans hlt hgt) (String.lt_irrefl _)
    · exact absurd hlt (String.lt_irrefl _)
    · exact hafter e' (List.mem_reverse.1 hmem)

end Candela.Keyed
