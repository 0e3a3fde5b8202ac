import Mathlib.Data.List.Induction
import Candela.Proofs.Texture.Registry

/-!
# Slots after any requests

A registry is asked for slots and told to forget some, in any order. `Registry.ask` asks in place:
what has been changed by then would stay changed when all slots are in use, so that nothing changes
is something to be proved (`ask_run`). Every request keeps a registry well-formed
(`WellFormed.perform`), and of a well-formed registry it is known what each request comes to
(`WellFormed.faithful`); hence it is known after any requests (`slots_faithful`).
-/

namespace Candela.Texture

/-- Files and skies are never taken for each other. -/
theorem Source.key_file_ne_key_sky (path : String) (model : Sky.Model) :
    (file path).key ≠ (sky model).key := by
  intro h
  have hfirst := congrArg (·.toList.head?) h
  simp [key] at hfirst

namespace Registry

variable {r : Registry} {source : Source} {sources : List Source} {slot : Nat}

/-! ## Requests -/

/-- Asks for the slot of a source, in place. -/
def ask (source : Source) : EStateM Error Registry Nat := do
  match (← get).slots.get? source.key with
  | some slot => return slot
  | none =>
    let slot := (← get).size
    if maxSlots ≤ slot then throw full
    modify fun r => { r with sources := r.sources ++ [source] }
    modify fun r => { r with slots := r.slots.insert source.key slot }
    return slot

/-- Asking in place gives what registering gives, and leaves everything as it is if that fails. -/
theorem ask_run (source : Source) (r : Registry) :
    (ask source).run r = match r.register source with
      | .ok (slot, r') => .ok slot r'
      | .error e => .error e r := by
  rw [register]
  cases hknown : r.slots.get? source.key with
  | some slot => simp [ask, hknown]
  | none =>
    by_cases hfull : maxSlots ≤ r.size
    · simp [ask, hknown, hfull]
    · simp only [ask, bind_pure_comp, EStateM.run_bind, EStateM.run_get, hknown, hfull, ↓reduceIte,
        EStateM.run_modify]
      rfl

/-- What is asked of a registry. -/
inductive Request where
  /-- A slot for a source. -/
  | register (source : Source)
  /-- To forget the slots from some one on. -/
  | truncate (size : Nat)

/-- What a request leaves behind, whether it has an answer or fails. -/
def perform (r : Registry) : Request → Registry
  | .register source =>
    match (ask source).run r with
    | .ok _ r' => r'
    | .error _ r' => r'
  | .truncate size => r.truncate size

/-- What requests leave of a registry that has been empty. -/
def after (requests : List Request) : Registry := requests.foldl perform .empty

/-- What stands in a registry says what comes of any request. -/
structure Faithful (r : Registry) : Prop where
  /-- The map finds the identity of every source at its place, and nothing else. -/
  slot_iff : ∀ key slot, r.slots.get? key = some slot ↔ r.keys[slot]? = some key
  /-- No two sources have the same identity. -/
  nodup : r.keys.Nodup
  /-- There are no more sources than shaders can reach. -/
  size_le : r.size ≤ maxSlots
  /-- A source that is known keeps its place, also when all slots are in use. -/
  known : ∀ source slot, r.keys[slot]? = some source.key → (ask source).run r = .ok slot r
  /-- A new source gets the next place. -/
  fresh : ∀ source, source.key ∉ r.keys → r.size < maxSlots →
    ∃ r', (ask source).run r = .ok r.size r' ∧ r'.sources = r.sources ++ [source]
  /-- When all slots are in use, a new source gets none. -/
  full : ∀ source, source.key ∉ r.keys → r.size = maxSlots → (ask source).run r = .error full r
  /-- What is left after slots were forgotten has never been asked for anything but the sources in
  front of them. -/
  truncate_eq : ∀ size,
    r.truncate size = after ((r.sources.take (min size r.size)).map .register)
  /-- A source that has been forgotten is a new one. -/
  forgotten : ∀ size, ∀ source ∈ r.sources.drop size,
    ∃ r', (ask source).run (r.truncate size) = .ok size r' ∧
      r'.sources = r.sources.take size ++ [source]

/-! ## Single requests -/

/-- A source of an identity that is known. -/
theorem WellFormed.ask_known (h : r.WellFormed) (hslot : r.keys[slot]? = some source.key) :
    (ask source).run r = .ok slot r := by
  rw [ask_run, register, (h.slot_iff _ _).2 hslot]

/-- A source of an identity that is new. -/
theorem WellFormed.ask_new (h : r.WellFormed) (hnew : source.key ∉ r.keys) :
    (ask source).run r =
      if maxSlots ≤ r.size then .error Registry.full r
      else .ok r.size ⟨r.sources ++ [source], r.slots.insert source.key r.size⟩ := by
  have hnone : r.slots.get? source.key = none := by
    refine Option.eq_none_iff_forall_ne_some.2 fun slot hslot => hnew ?_
    exact h.mem_keys_iff.2 ⟨slot, hslot⟩
  rw [ask_run, register, hnone]
  by_cases hfull : maxSlots ≤ r.size
  · simp only [if_pos hfull]
  · simp only [if_neg hfull]

/-- A new source for which there is room. -/
theorem WellFormed.ask_fresh (h : r.WellFormed) (hnew : source.key ∉ r.keys)
    (hroom : r.size < maxSlots) :
    (ask source).run r = .ok r.size ⟨r.sources ++ [source], r.slots.insert source.key r.size⟩ := by
  rw [h.ask_new hnew, if_neg (Nat.not_le.2 hroom)]

/-- A step: every request keeps a registry well-formed. -/
theorem WellFormed.perform (h : r.WellFormed) (request : Request) :
    (r.perform request).WellFormed := by
  cases request with
  | truncate size => exact h.truncate size
  | register source =>
    rw [Registry.perform, ask_run]
    cases hregister : r.register source with
    | error e => exact h
    | ok answer => exact (h.register_ok hregister).1

/-- A run: what any requests leave is well-formed. -/
theorem wellFormed_after (requests : List Request) : (after requests).WellFormed :=
  List.foldlRecOn requests perform WellFormed.empty fun _ h request _ => h.perform request

/-! ## Several requests -/

theorem after_concat (requests : List Request) (request : Request) :
    after (requests ++ [request]) = (after requests).perform request := by
  rw [after, List.foldl_append]
  rfl

/-- New sources that are asked for one after another stand in this order. -/
theorem sources_after_register (hnodup : (sources.map Source.key).Nodup)
    (hroom : sources.length ≤ maxSlots) : (after (sources.map .register)).sources = sources := by
  induction sources using List.reverseRecOn with
  | nil => rfl
  | append_singleton sources source ih =>
    rw [List.map_append, List.nodup_append] at hnodup
    rw [List.length_append, List.length_singleton] at hroom
    have hsources := ih hnodup.1 (Nat.le_of_succ_le hroom)
    have hnew : source.key ∉ (after (sources.map .register)).keys := by
      rw [keys, hsources]
      intro hmem
      exact hnodup.2.2 _ hmem _ List.mem_cons_self rfl
    have hsize : (after (sources.map .register)).size < maxSlots := by
      rw [size, hsources]
      exact hroom
    rw [List.map_append, List.map_singleton, after_concat, Registry.perform,
      (wellFormed_after _).ask_fresh hnew hsize]
    show (after (sources.map .register)).sources ++ [source] = sources ++ [source]
    rw [hsources]

/-- A registry is what asking for its sources in their order would have given. -/
theorem WellFormed.eq_after (h : r.WellFormed) : r = after (r.sources.map .register) :=
  h.ext (wellFormed_after _) (sources_after_register h.nodup_keys h.size_le).symm

/-- A source behind the place from which slots are forgotten is not known any more. -/
theorem WellFormed.notMem_keys_truncate (h : r.WellFormed) {size : Nat}
    (hsource : source ∈ r.sources.drop size) : source.key ∉ (r.truncate size).keys := by
  have hkeys : r.keys = (r.truncate size).keys ++ (r.sources.drop size).map Source.key := by
    rw [keys, keys, Registry.truncate, ← List.map_append, List.take_append_drop]
  have hnodup := h.nodup_keys
  rw [hkeys, List.nodup_append] at hnodup
  intro hmem
  exact hnodup.2.2 _ hmem _ (List.mem_map_of_mem hsource) rfl

/-- Of a well-formed registry it is known what comes of any request. -/
theorem WellFormed.faithful (h : r.WellFormed) : r.Faithful where
  slot_iff := h.slot_iff
  nodup := h.nodup_keys
  size_le := h.size_le
  known _ _ hslot := h.ask_known hslot
  fresh _ hnew hroom := ⟨_, h.ask_fresh hnew hroom, rfl⟩
  full source hnew hfull := by rw [h.ask_new hnew, if_pos hfull.ge]
  truncate_eq size := by
    rw [(h.truncate size).eq_after]
    show after ((r.sources.take size).map .register) = _
    rw [List.take_eq_take_min]
    rfl
  forgotten size source hsource := by
    have hlt : size < r.sources.length := by
      by_contra hge
      rw [List.drop_eq_nil_of_le (Nat.le_of_not_lt hge)] at hsource
      cases hsource
    have hsize : (r.truncate size).size = size := List.length_take_of_le hlt.le
    have hroom : (r.truncate size).size < maxSlots := by
      rw [hsize]
      exact Nat.lt_of_lt_of_le hlt h.size_le
    have hask := (h.truncate size).ask_fresh (h.notMem_keys_truncate hsource) hroom
    rw [hsize] at hask
    exact ⟨_, hask, rfl⟩

/-- After any requests, some of which may have failed, what stands in the registry says what comes
of the next one. A file and a sky never have the same identity. -/
theorem slots_faithful (requests : List Request) :
    (after requests).Faithful ∧
      ∀ path model, (Source.file path).key ≠ (Source.sky model).key :=
  ⟨(wellFormed_after requests).faithful, Source.key_file_ne_key_sky⟩

end Registry

end Candela.Texture
