import Candela.Proofs.Keyed
import Candela.Texture.Registry

/-!
# Texture slots are the places of their sources

A registry keeps its sources twice: as a list, whose places are the slots, and in a map from the
identity of a source to its slot. `Registry.WellFormed` says that the two agree. It determines the
map (`WellFormed.ext`), is kept by giving a slot (`register_ok`) and by forgetting slots
(`WellFormed.truncate`), and so forgetting what was added gives back the registry from before
(`truncate_of_extends`).
-/

namespace Candela.Texture.Registry

variable {r r' r'' : Registry} {source : Source} {slot : Nat} {key : String}

/-- The identities of the sources, in slot order. -/
def keys (r : Registry) : List String := r.sources.map Source.key

/-- The map finds every source at its place, and nothing else. -/
structure WellFormed (r : Registry) : Prop where
  /-- The slot of an identity is the place of the source that has it. -/
  slot_iff : ∀ key slot, r.slots.get? key = some slot ↔ r.keys[slot]? = some key
  /-- There are no more slots than shaders can reach. -/
  size_le : r.size ≤ maxSlots

/-- Some sources have been added behind those that were there. -/
def Extends (r r' : Registry) : Prop := r.sources <+: r'.sources

theorem Extends.refl (r : Registry) : r.Extends r := List.prefix_refl _

theorem Extends.trans (h : r.Extends r') (h' : r'.Extends r'') : r.Extends r'' :=
  List.IsPrefix.trans h h'

/-- A registry without sources is well-formed. -/
theorem WellFormed.empty : WellFormed Registry.empty where
  slot_iff key slot := by simp [Registry.empty, keys]
  size_le := Nat.zero_le _

@[simp] theorem length_keys : r.keys.length = r.size := List.length_map _

/-- An identity has a slot if and only if a source has it. -/
theorem WellFormed.mem_keys_iff (h : r.WellFormed) :
    key ∈ r.keys ↔ ∃ slot, r.slots.get? key = some slot := by
  simp only [h.slot_iff, List.mem_iff_getElem?]

/-- An identity without a slot is that of no source. -/
theorem WellFormed.notMem_keys (h : r.WellFormed) (hnone : r.slots.get? key = none) :
    key ∉ r.keys := by
  intro hmem
  obtain ⟨slot, hslot⟩ := h.mem_keys_iff.1 hmem
  rw [hnone] at hslot
  cases hslot

/-- No two sources have the same identity. -/
theorem WellFormed.nodup_keys (h : r.WellFormed) : r.keys.Nodup := by
  refine List.nodup_iff_getElem?_ne_getElem?.2 fun i j hij hj heq => ?_
  obtain ⟨key, hkey⟩ : ∃ key, r.keys[j]? = some key := ⟨_, List.getElem?_eq_getElem hj⟩
  have hi := (h.slot_iff key i).2 (heq.trans hkey)
  rw [(h.slot_iff key j).2 hkey] at hi
  cases hi
  exact Nat.lt_irrefl _ hij

/-- The sources determine the map. -/
theorem WellFormed.ext (h : r.WellFormed) (h' : r'.WellFormed) (hs : r.sources = r'.sources) :
    r = r' := by
  have hslots : r.slots = r'.slots := Keyed.ext_get? fun key => by
    have hkeys : r.keys = r'.keys := by rw [keys, keys, hs]
    refine Option.ext fun slot => ?_
    rw [h.slot_iff, h'.slot_iff, hkeys]
  cases r
  cases r'
  cases hs
  cases hslots
  rfl

/-- A source of the identity stands at its slot. -/
theorem WellFormed.exists_source (h : r.WellFormed) (hslot : r.slots.get? key = some slot) :
    ∃ source, r.sources[slot]? = some source ∧ source.key = key := by
  have hkey := (h.slot_iff key slot).1 hslot
  rwa [keys, List.getElem?_map, Option.map_eq_some_iff] at hkey

/-- An extension keeps the sources at their slots. -/
theorem Extends.getElem? (h : r.Extends r') (hslot : r.sources[slot]? = some source) :
    r'.sources[slot]? = some source := by
  obtain ⟨added, hadded⟩ := h
  rw [← hadded, List.getElem?_append_left (List.getElem?_eq_some_iff.1 hslot).1]
  exact hslot

/-- An extension keeps the slots. -/
theorem WellFormed.get?_of_extends (h : r.WellFormed) (h' : r'.WellFormed) (hext : r.Extends r')
    (hslot : r.slots.get? key = some slot) : r'.slots.get? key = some slot := by
  obtain ⟨added, hadded⟩ := hext
  have hkeys : r'.keys = r.keys ++ added.map Source.key := by
    rw [keys, ← hadded, List.map_append, keys]
  rw [h.slot_iff] at hslot
  rw [h'.slot_iff, hkeys, List.getElem?_append_left (List.getElem?_eq_some_iff.1 hslot).1]
  exact hslot

/-! ## Giving slots -/

/-- What stands at a place of a list with one more element. -/
theorem getElem?_concat_eq_some_iff {α : Type} {l : List α} {a b : α} {i : Nat} :
    (l ++ [a])[i]? = some b ↔ l[i]? = some b ∨ i = l.length ∧ b = a := by
  rw [List.getElem?_append]
  split
  · next hlt =>
    have : i ≠ l.length := Nat.ne_of_lt hlt
    simp [this]
  · next hge =>
    have hnone : l[i]? = none := List.getElem?_eq_none (Nat.le_of_not_lt hge)
    have hsub : i - l.length = 0 ↔ i = l.length := by omega
    simp [hnone, List.getElem?_singleton, hsub, eq_comm]

/-- A source that gets a slot is found there; only this source may have been added. -/
theorem WellFormed.register_ok (h : r.WellFormed) (hr : r.register source = .ok (slot, r')) :
    r'.WellFormed ∧ r.Extends r' ∧ r'.slots.get? source.key = some slot ∧
      ∀ s ∈ r'.sources, s ∈ r.sources ∨ s = source := by
  unfold register at hr
  split at hr
  · next known hknown =>
    cases hr
    exact ⟨h, .refl r, hknown, fun s hs => .inl hs⟩
  · next hnew =>
    split at hr
    · cases hr
    · next hroom =>
      cases hr
      have hkeys : (Registry.mk (r.sources ++ [source])
          (r.slots.insert source.key r.size)).keys = r.keys ++ [source.key] := by simp [keys]
      refine ⟨⟨fun key slot => ?_, ?_⟩, List.prefix_append _ _, ?_, fun s hs => ?_⟩
      · rw [hkeys, Keyed.get?_insert, getElem?_concat_eq_some_iff, length_keys, ← h.slot_iff]
        split
        · next heq =>
          subst heq
          simp [hnew, eq_comm]
        · next hne => simp [hne]
      · simp only [size, List.length_append, List.length_singleton] at hroom ⊢
        omega
      · rw [Keyed.get?_insert, if_pos rfl]
      · simpa using hs

/-- A source that gets no slot is new, and all slots are in use. -/
theorem register_error {e : Error} (hr : r.register source = .error e) :
    e = full ∧ r.slots.get? source.key = none ∧ maxSlots ≤ r.size := by
  unfold register at hr
  split at hr
  · cases hr
  · next hnew =>
    split at hr
    · next hfull =>
      cases hr
      exact ⟨rfl, hnew, hfull⟩
    · cases hr

/-! ## Forgetting slots -/

/-- Forgetting sources forgets the slots of their identities. -/
theorem get?_foldl_erase (sources : List Source) (slots : Keyed Nat) (key : String) :
    (sources.foldl (fun slots source => slots.erase source.key) slots).get? key =
      if key ∈ sources.map Source.key then none else slots.get? key := by
  induction sources generalizing slots with
  | nil => simp
  | cons source rest ih =>
    rw [List.foldl_cons, ih, Keyed.get?_erase]
    by_cases hrest : key ∈ rest.map Source.key
    · simp [hrest]
    · by_cases hkey : key = source.key <;> simp [hrest, hkey]

/-- What is left after slots were forgotten is well-formed. -/
theorem WellFormed.truncate (h : r.WellFormed) (size : Nat) : (r.truncate size).WellFormed where
  slot_iff key slot := by
    have hkeys : (r.truncate size).keys = r.keys.take size := by simp [Registry.truncate, keys]
    have hdropped : (r.sources.drop size).map Source.key = r.keys.drop size := by simp [keys]
    rw [hkeys, Registry.truncate, get?_foldl_erase, hdropped, List.getElem?_take]
    split
    · next hmem =>
      obtain ⟨i, hi⟩ := List.mem_iff_getElem?.1 hmem
      rw [List.getElem?_drop] at hi
      have hplace : r.keys[slot]? = some key → slot = size + i := fun hslot => by
        have h1 := (h.slot_iff key slot).2 hslot
        rw [(h.slot_iff key (size + i)).2 hi] at h1
        cases h1
        rfl
      refine iff_of_false (fun hbad => nomatch hbad) fun hkept => ?_
      split at hkept
      · next hlt =>
        have := hplace hkept
        omega
      · cases hkept
    · next hnot =>
      rw [h.slot_iff]
      split
      · rfl
      · next hge =>
        refine iff_of_false (fun hslot => hnot ?_) (fun hbad => nomatch hbad)
        refine List.mem_iff_getElem?.2 ⟨slot - size, ?_⟩
        rw [List.getElem?_drop, Nat.add_sub_cancel' (Nat.le_of_not_lt hge)]
        exact hslot
  size_le := by
    refine Nat.le_trans ?_ h.size_le
    simp [Registry.size, Registry.truncate]

/-- Forgetting what has been added gives back the registry from before. -/
theorem truncate_of_extends (h : r.WellFormed) (h' : r'.WellFormed) (hext : r.Extends r') :
    r'.truncate r.size = r :=
  (h'.truncate r.size).ext h (List.prefix_iff_eq_take.1 hext).symm

end Candela.Texture.Registry
