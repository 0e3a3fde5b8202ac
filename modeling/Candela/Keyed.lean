/-!
# Key-ordered maps

`Keyed α` is a finite map from names to values whose entries are listed in strictly increasing
order of their names (code points, which is also the order of their UTF-8 bytes). Everything that
walks a graph or a scene walks it in this order, so every result is a function of the contents
alone. The order is part of the type; `get?_insert` says what an insertion does to a look-up.
-/

namespace Candela

/-- A map from names to values, listed in strictly increasing order of the names. -/
structure Keyed (α : Type) where
  /-- The entries, in key order. -/
  entries : List (String × α)
  /-- No name occurs twice and none is out of order. -/
  sorted : entries.Pairwise (fun a b => a.1 < b.1)

namespace Keyed

variable {α β : Type}

/-! ## Sorted insertion -/

/-- Puts a value under a name, replacing the value that is there. -/
def insertEntry (key : String) (value : α) : List (String × α) → List (String × α)
  | [] => [(key, value)]
  | (k, v) :: rest =>
    if key < k then (key, value) :: (k, v) :: rest
    else if key = k then (key, value) :: rest
    else (k, v) :: insertEntry key value rest

/-- What an insertion lists is the new entry or an entry that was there. -/
theorem mem_insertEntry {key : String} {value : α} {e : String × α} :
    ∀ {l : List (String × α)}, e ∈ insertEntry key value l → e = (key, value) ∨ e ∈ l
  | [], h => by simpa [insertEntry] using h
  | (k, v) :: rest, h => by
    unfold insertEntry at h
    split at h
    · simpa using h
    · split at h
      · rcases List.mem_cons.1 h with h | h
        · exact .inl h
        · exact .inr (List.mem_cons_of_mem _ h)
      · rcases List.mem_cons.1 h with h | h
        · exact .inr (h ▸ List.mem_cons_self)
        · exact (mem_insertEntry h).imp_right (List.mem_cons_of_mem _)

/-- Two distinct names that are not in one order are in the other. -/
theorem lt_of_not_lt {a b : String} (h : ¬ a < b) (hne : a ≠ b) : b < a := by
  rcases Std.lt_trichotomy a b with h' | h' | h'
  · exact absurd h' h
  · exact absurd h' hne
  · exact h'

/-- Insertion keeps the order. -/
theorem insertEntry_sorted {key : String} {value : α} :
    ∀ {l : List (String × α)}, l.Pairwise (fun a b => a.1 < b.1) →
      (insertEntry key value l).Pairwise (fun a b => a.1 < b.1)
  | [], _ => by simp [insertEntry]
  | (k, v) :: rest, h => by
    obtain ⟨hhead, hrest⟩ := List.pairwise_cons.1 h
    unfold insertEntry
    split
    · next hlt =>
      refine List.pairwise_cons.2 ⟨fun e he => ?_, h⟩
      rcases List.mem_cons.1 he with rfl | he
      · exact hlt
      · exact String.lt_trans hlt (hhead e he)
    · split
      · next heq =>
        subst heq
        exact List.pairwise_cons.2 ⟨hhead, hrest⟩
      · next hnlt hne =>
        refine List.pairwise_cons.2 ⟨fun e he => ?_, insertEntry_sorted hrest⟩
        rcases mem_insertEntry he with rfl | he
        · exact lt_of_not_lt hnlt hne
        · exact hhead e he

/-- A look-up decides on the first entry and else goes on. -/
theorem lookup_cons_eq (name k : String) (v : α) (rest : List (String × α)) :
    ((k, v) :: rest).lookup name = if name = k then some v else rest.lookup name := by
  by_cases h : name = k
  · simp [h]
  · have hb : (name == k) = false := by simpa using h
    simp [List.lookup_cons, h, hb]

/-- What a look-up finds after an insertion. -/
theorem lookup_insertEntry (key : String) (value : α) (name : String) :
    ∀ l : List (String × α),
      (insertEntry key value l).lookup name = if name = key then some value else l.lookup name
  | [] => by simp only [insertEntry, lookup_cons_eq]
  | (k, v) :: rest => by
    unfold insertEntry
    split
    · simp only [lookup_cons_eq]
    · split
      · next heq =>
        subst heq
        simp only [lookup_cons_eq]
        split <;> rfl
      · next hne =>
        simp only [lookup_cons_eq, lookup_insertEntry key value name rest]
        by_cases hn : name = k
        · subst hn; simp [Ne.symm hne]
        · simp [hn]

/-! ## The map -/

/-- The map without entries. -/
def empty : Keyed α := ⟨[], .nil⟩

instance : Inhabited (Keyed α) := ⟨empty⟩

/-- Puts a value under a name, replacing the value that is there. -/
def insert (m : Keyed α) (key : String) (value : α) : Keyed α :=
  ⟨insertEntry key value m.entries, insertEntry_sorted m.sorted⟩

/-- Takes away the value under a name. -/
def erase (m : Keyed α) (key : String) : Keyed α :=
  ⟨m.entries.filter fun e => e.1 != key, m.sorted.filter _⟩

/-- The value under a name. -/
def get? (m : Keyed α) (key : String) : Option α := m.entries.lookup key

/-- Whether a name has a value. -/
def contains (m : Keyed α) (key : String) : Bool := (m.get? key).isSome

/-- The names, in order. -/
def keys (m : Keyed α) : List String := m.entries.map (·.1)

/-- The values, in the order of their names. -/
def values (m : Keyed α) : List α := m.entries.map (·.2)

/-- How many entries there are. -/
def size (m : Keyed α) : Nat := m.entries.length

/-- Whether there is no entry. -/
def isEmpty (m : Keyed α) : Bool := m.entries.isEmpty

/-- The map that holds the given entries, a later one replacing an earlier one of its name. -/
def ofList (l : List (String × α)) : Keyed α :=
  l.foldl (fun m e => m.insert e.1 e.2) empty

/-- Applies a function to every value. -/
def map (f : α → β) (m : Keyed α) : Keyed β :=
  ⟨m.entries.map fun e => (e.1, f e.2), by
    have h := m.sorted
    exact List.pairwise_map.2 h⟩

/-- A look-up in the map without entries finds nothing. -/
@[simp] theorem get?_empty (name : String) : (empty : Keyed α).get? name = none := rfl

/-- A look-up after an insertion. -/
theorem get?_insert (m : Keyed α) (key name : String) (value : α) :
    (m.insert key value).get? name = if name = key then some value else m.get? name :=
  lookup_insertEntry key value name m.entries

/-- A name with a value is listed with the value. -/
theorem mem_entries_of_get? {m : Keyed α} {name : String} {v : α} (h : m.get? name = some v) :
    (name, v) ∈ m.entries := by
  obtain ⟨entries, _⟩ := m
  simp only [get?] at *
  induction entries with
  | nil => simp at h
  | cons e rest ih =>
    rw [lookup_cons_eq] at h
    split at h
    · next heq =>
      cases h
      exact heq ▸ List.mem_cons_self
    · next hs _ => exact List.mem_cons_of_mem _ (ih (List.pairwise_cons.1 hs).2 h)

/-- A name with a value is listed. -/
theorem mem_keys_of_get? {m : Keyed α} {name : String} {v : α} (h : m.get? name = some v) :
    name ∈ m.keys :=
  List.mem_map.2 ⟨_, mem_entries_of_get? h, rfl⟩

/-- A look-up among the entries of other names. -/
theorem lookup_filter_ne (key name : String) :
    ∀ l : List (String × α),
      (l.filter fun e => e.1 != key).lookup name = if name = key then none else l.lookup name
  | [] => by simp
  | (k, v) :: rest => by
    have ih := lookup_filter_ne key name rest
    by_cases hk : k = key
    · subst hk
      rw [List.filter_cons_of_neg (by simp), ih, lookup_cons_eq]
      split <;> simp_all
    · rw [List.filter_cons_of_pos (by simpa using hk), lookup_cons_eq, ih, lookup_cons_eq]
      by_cases hn : name = k
      · subst hn; simp [hk]
      · simp [hn]

/-- A look-up after a value was taken away. -/
theorem get?_erase (m : Keyed α) (key name : String) :
    (m.erase key).get? name = if name = key then none else m.get? name :=
  lookup_filter_ne key name m.entries

end Keyed

end Candela
