import Candela.Lighting.Table
import Mathlib.Data.List.Nodup
import Mathlib.Data.Prod.Basic

/-!
# The order of lights

Lights are sorted by their kinds and names, and those that share both stay in the order in which
they have been given. So all that matters of that order is how the lights of one kind and name
follow each other (`Reordered`, `mergeSort_eq_of_reordered`), and if there are no two of them,
nothing matters (`reordered_of_perm`). In a sorted list the elements of one key stand together: the
list is made of blocks, one for each key (`eq_flatMap_filter`).
-/

namespace Candela.Lighting

section Keys

variable {α κ : Type} [DecidableEq κ] {key : α → κ} {le : α → α → Prop} {l l' : List α}

/-- What is in a list is in every list that has the same elements of each key. -/
theorem mem_of_filter_eq (h : ∀ k, l.filter (key · = k) = l'.filter (key · = k)) {a : α}
    (ha : a ∈ l) : a ∈ l' := by
  have hmem : a ∈ l.filter (key · = key a) := List.mem_filter.2 ⟨ha, decide_eq_true rfl⟩
  rw [h] at hmem
  exact List.mem_of_mem_filter hmem

/-- A sorted list is determined by its elements of each key, if only elements of one key are not
told apart by the order. -/
theorem eq_of_pairwise_of_filter_eq (key : α → κ) (hkey : ∀ a b, le a b → le b a → key a = key b)
    (hl : l.Pairwise le) (hl' : l'.Pairwise le)
    (h : ∀ k, l.filter (key · = k) = l'.filter (key · = k)) : l = l' := by
  induction l generalizing l' with
  | nil =>
    cases l' with
    | nil => rfl
    | cons b l' => cases mem_of_filter_eq (fun k => (h k).symm) List.mem_cons_self
  | cons a l ih =>
    cases l' with
    | nil => cases mem_of_filter_eq h List.mem_cons_self
    | cons b l' =>
      have hheads : key a = key b := by
        rcases List.mem_cons.1 (mem_of_filter_eq h List.mem_cons_self) with rfl | ha
        · rfl
        · rcases List.mem_cons.1 (mem_of_filter_eq (fun k => (h k).symm) List.mem_cons_self) with
            rfl | hb
          · rfl
          · exact hkey a b (List.rel_of_pairwise_cons hl hb) (List.rel_of_pairwise_cons hl' ha)
      obtain rfl : a = b := by
        have hfirst := h (key a)
        simp only [List.filter_cons, hheads, decide_true, if_true] at hfirst
        exact (List.cons.inj hfirst).1
      refine congrArg (a :: ·) (ih hl.of_cons hl'.of_cons fun k => ?_)
      have hk := h k
      simp only [List.filter_cons, decide_eq_true_eq] at hk
      split at hk
      next => exact (List.cons.inj hk).2
      next => exact hk

/-- Two lists of the same elements, no two of which have one key, have the same elements of each
key. -/
theorem filter_eq_of_perm (hperm : l.Perm l') (hnodup : (l.map key).Nodup) (k : κ) :
    l.filter (key · = k) = l'.filter (key · = k) := by
  have hfilter := hperm.filter (key · = k)
  have hle : (l.filter (key · = k)).length ≤ 1 := by
    have hcount := List.nodup_iff_count_le_one.1 hnodup k
    rw [List.count, List.countP_map, List.countP_eq_length_filter] at hcount
    exact Nat.le_trans (Nat.le_of_eq (congrArg List.length (List.filter_congr fun _ _ => rfl)))
      hcount
  cases hl : l.filter (key · = k) with
  | nil =>
    rw [hl] at hfilter
    exact (List.perm_nil.1 hfilter.symm).symm
  | cons a rest =>
    rw [hl, List.length_cons] at hle
    obtain rfl : rest = [] := List.eq_nil_of_length_eq_zero (by omega)
    rw [hl] at hfilter
    exact (List.perm_singleton.1 hfilter.symm).symm

/-- The elements of one key, taken out of the blocks of all keys. -/
theorem filter_flatMap_filter {keys : List κ} (hkeys : keys.Nodup) {k : κ} (hk : k ∈ keys) :
    (keys.flatMap fun k' => l.filter (key · = k')).filter (key · = k) = l.filter (key · = k) := by
  induction keys with
  | nil => cases hk
  | cons k' rest ih =>
    obtain ⟨hnew, hrest⟩ := List.nodup_cons.1 hkeys
    rw [List.flatMap_cons, List.filter_append, List.filter_filter]
    by_cases hkk' : k = k'
    · subst hkk'
      have hlater : (rest.flatMap fun k' => l.filter (key · = k')).filter (key · = k) = [] := by
        refine List.filter_eq_nil_iff.2 fun a ha hak => hnew ?_
        obtain ⟨k', hk', ha⟩ := List.mem_flatMap.1 ha
        have hak' := of_decide_eq_true (List.mem_filter.1 ha).2
        rwa [← of_decide_eq_true hak, hak']
      simp only [hlater, List.append_nil, Bool.and_self]
    · have hfirst : l.filter (fun a => decide (key a = k) && decide (key a = k')) = [] := by
        refine List.filter_eq_nil_iff.2 fun a _ ha => hkk' ?_
        rw [Bool.and_eq_true, decide_eq_true_eq, decide_eq_true_eq] at ha
        exact ha.1.symm.trans ha.2
      rw [hfirst, List.nil_append]
      exact ih hrest ((List.mem_cons.1 hk).resolve_left hkk')

/-- A sorted list is made of one block for each key. -/
theorem eq_flatMap_filter {rank : κ → Nat} (hrank : Function.Injective rank) {keys : List κ}
    (hkeys : keys.Pairwise fun k k' => rank k < rank k') (hall : ∀ k, k ∈ keys)
    (hl : l.Pairwise fun a b => rank (key a) ≤ rank (key b)) :
    l = keys.flatMap fun k => l.filter (key · = k) := by
  have hnodup : keys.Nodup := by
    refine hkeys.imp fun hlt => ?_
    rintro rfl
    exact Nat.lt_irrefl _ hlt
  refine eq_of_pairwise_of_filter_eq key (fun a b hab hba => hrank (Nat.le_antisymm hab hba))
    hl ?_ fun k => (filter_flatMap_filter hnodup (hall k)).symm
  refine List.pairwise_flatMap.2 ⟨fun k _ => hl.filter _, hkeys.imp fun hlt a ha b hb => ?_⟩
  rw [of_decide_eq_true (List.mem_filter.1 ha).2, of_decide_eq_true (List.mem_filter.1 hb).2]
  exact Nat.le_of_lt hlt

/-- Sorting leaves the elements of one key in their order, if the order does not tell them apart. -/
theorem filter_mergeSort {le : α → α → Bool} (htrans : ∀ a b c, le a b → le b c → le a c)
    (htotal : ∀ a b, le a b || le b a) (hkey : ∀ a b, key a = key b → le a b) (l : List α) (k : κ) :
    (l.mergeSort le).filter (key · = k) = l.filter (key · = k) := by
  have hequal : (l.filter (key · = k)).Pairwise fun a b => le a b := by
    refine List.pairwise_of_forall_mem_list fun a ha b hb => hkey a b ?_
    rw [of_decide_eq_true (List.mem_filter.1 ha).2, of_decide_eq_true (List.mem_filter.1 hb).2]
  have hsub := (List.sublist_mergeSort htrans htotal hequal List.filter_sublist).filter (key · = k)
  rw [List.filter_filter] at hsub
  simp only [Bool.and_self] at hsub
  exact (hsub.eq_of_length ((List.mergeSort_perm l le).filter _).length_eq.symm).symm

end Keys

/-! ## Sorted lights -/

variable {a b : Scene.Light} {lights lights' : List Scene.Light}

/-- Types have different places. -/
theorem order_injective : Function.Injective Scene.LightType.order := by
  intro x y h
  cases x <;> cases y <;> first | rfl | cases h

/-- What lights are sorted by. -/
def sortKey (l : Scene.Light) : Scene.LightType × String := (l.kind.type, l.name)

theorem precedes_iff : precedes a b = true ↔
    a.kind.type.order < b.kind.type.order ∨ a.kind.type = b.kind.type ∧ a.name ≤ b.name := by
  simp [precedes, order_injective.eq_iff]

theorem precedes_trans (a b c : Scene.Light) (h : precedes a b = true) (h' : precedes b c = true) :
    precedes a c = true := by
  rw [precedes_iff] at h h' ⊢
  rcases h with h | ⟨htype, hname⟩
  · rcases h' with h' | ⟨htype', -⟩
    · exact .inl (Nat.lt_trans h h')
    · exact .inl (htype' ▸ h)
  · rcases h' with h' | ⟨htype', hname'⟩
    · exact .inl (htype ▸ h')
    · exact .inr ⟨htype.trans htype', String.le_trans hname hname'⟩

theorem precedes_total (a b : Scene.Light) : (precedes a b || precedes b a) = true := by
  rw [Bool.or_eq_true, precedes_iff, precedes_iff]
  rcases Nat.lt_trichotomy a.kind.type.order b.kind.type.order with h | h | h
  · exact .inl (.inl h)
  · have htype := order_injective h
    exact (String.le_total a.name b.name).imp (fun h => .inr ⟨htype, h⟩)
      (fun h => .inr ⟨htype.symm, h⟩)
  · exact .inr (.inl h)

/-- Only lights of one kind and name are not told apart. -/
theorem sortKey_eq_of_precedes (h : precedes a b = true) (h' : precedes b a = true) :
    sortKey a = sortKey b := by
  rw [precedes_iff] at h h'
  rcases h with h | ⟨htype, hname⟩
  · rcases h' with h' | ⟨htype', -⟩
    · exact absurd h (Nat.lt_asymm h')
    · exact absurd h (htype' ▸ Nat.lt_irrefl _)
  · rcases h' with h' | ⟨-, hname'⟩
    · exact absurd h' (htype ▸ Nat.lt_irrefl _)
    · exact Prod.ext htype (String.le_antisymm hname hname')

theorem precedes_of_sortKey_eq (h : sortKey a = sortKey b) : precedes a b = true := by
  obtain ⟨htype, hname⟩ := Prod.mk.inj h
  exact precedes_iff.2 (.inr ⟨htype, hname ▸ String.le_refl _⟩)

/-- Sorting puts every light before those that do not precede it. -/
theorem pairwise_sort (lights : List Scene.Light) :
    (lights.mergeSort precedes).Pairwise fun a b => precedes a b = true :=
  List.pairwise_mergeSort precedes_trans precedes_total lights

/-- Lights of one kind and name stay in their order. -/
theorem filter_sort (lights : List Scene.Light) (k : Scene.LightType × String) :
    (lights.mergeSort precedes).filter (sortKey · = k) = lights.filter (sortKey · = k) :=
  filter_mergeSort precedes_trans precedes_total (fun _ _ => precedes_of_sortKey_eq) lights k

/-- The same lights, those of one kind and name in the same order. -/
def Reordered (lights lights' : List Scene.Light) : Prop :=
  ∀ k, lights.filter (sortKey · = k) = lights'.filter (sortKey · = k)

/-- Any other order will do if no two lights have one kind and name. -/
theorem reordered_of_perm (hperm : lights.Perm lights') (hnodup : (lights.map sortKey).Nodup) :
    Reordered lights lights' :=
  filter_eq_of_perm hperm hnodup

/-- The sorted lights do not depend on the order in which they are given. -/
theorem mergeSort_eq_of_reordered (h : Reordered lights lights') :
    lights.mergeSort precedes = lights'.mergeSort precedes := by
  refine eq_of_pairwise_of_filter_eq sortKey (fun _ _ => sortKey_eq_of_precedes)
    (pairwise_sort lights) (pairwise_sort lights') fun k => ?_
  rw [filter_sort, filter_sort, h k]

/-- Reordered lights are the same lights. -/
theorem Reordered.perm (h : Reordered lights lights') : lights.Perm lights' :=
  (List.mergeSort_perm lights precedes).symm.trans
    (mergeSort_eq_of_reordered h ▸ List.mergeSort_perm lights' precedes)

end Candela.Lighting
