import Candela.Proofs.Frame.Layout
import Mathlib.Data.List.Nodup
import Mathlib.Data.List.Perm.Basic

/-!
# The threads of a step

The threads of a step come in any order, and the ones behind the last ray do nothing. So what a step
does follows from what one thread with a ray does (`exists_threads`): the camera adds its rays one
after another (`exists_camera`), a trace reads every ray there is (`exists_trace`), and shading
reads every ray as well, each of which ends or goes on, while what is added stays apart from what is
still to be read (`exists_shade`). `Shading` is what all of its threads keep.
-/

namespace Candela.Frame

variable {ρ : Type}

/-! ## Rays in a buffer -/

/-- The rays at some indices behind the base of a buffer, with their slots. -/
def InSlots (buffer : List ρ) (base : Nat) (indices : List Nat) (rays : List (Nat × ρ)) : Prop :=
  rays.map (fun x => (x.1, some x.2)) = indices.map fun i => (base + i, buffer[base + i]?)

namespace InSlots

variable {buffer : List ρ} {base slot n : Nat} {indices indices' : List Nat} {ray : ρ}
  {rays rays' : List (Nat × ρ)}

theorem nil : InSlots buffer base [] [] := rfl

theorem slots (h : InSlots buffer base indices rays) :
    rays.map Prod.fst = indices.map (base + ·) := by
  have := congrArg (List.map Prod.fst) h
  rwa [List.map_map, List.map_map] at this

theorem length (h : InSlots buffer base indices rays) : rays.length = indices.length := by
  simpa using congrArg List.length h.slots

theorem nodup (h : InSlots buffer base (List.range n) rays) : (rays.map Prod.fst).Nodup := by
  rw [h.slots]
  exact List.Nodup.map (fun i j => Nat.add_left_cancel) List.nodup_range

theorem lt {limit : Nat} (h : InSlots buffer base indices rays)
    (hlimit : ∀ i ∈ indices, base + i < limit) : ∀ x ∈ rays, x.1 < limit := by
  intro x hx
  have : x.1 ∈ rays.map Prod.fst := List.mem_map_of_mem hx
  rw [h.slots] at this
  obtain ⟨i, hi, heq⟩ := List.mem_map.mp this
  exact heq ▸ hlimit i hi

theorem exists_getElem? {i : Nat} (h : InSlots buffer base indices rays) (hi : i ∈ indices) :
    ∃ ray, buffer[base + i]? = some ray := by
  have : (base + i, buffer[base + i]?) ∈ rays.map fun x => (x.1, some x.2) := by
    rw [h]
    exact List.mem_map_of_mem hi
  obtain ⟨x, -, hx⟩ := List.mem_map.mp this
  exact ⟨x.2, by simpa using congrArg Prod.snd hx.symm⟩

theorem concat (h : InSlots buffer base indices rays) {i : Nat}
    (hray : buffer[base + i]? = some ray) :
    InSlots buffer base (indices ++ [i]) (rays ++ [(base + i, ray)]) := by
  simp only [InSlots, List.map_append, List.map_cons, List.map_nil, hray] at h ⊢
  rw [h]

/-- What is written to another slot does not matter. -/
theorem set (h : InSlots buffer base indices rays) (hslot : ∀ i ∈ indices, base + i ≠ slot) :
    InSlots (buffer.set slot ray) base indices rays := by
  rw [InSlots, h]
  refine List.map_congr_left fun i hi => ?_
  rw [List.getElem?_set_ne (Ne.symm (hslot i hi))]

/-- A ray is added behind the last one. -/
theorem push (h : InSlots buffer base (List.range n) rays) (hslot : base + n < buffer.length) :
    InSlots (buffer.set (base + n) ray) base (List.range (n + 1)) (rays ++ [(base + n, ray)]) := by
  rw [List.range_succ]
  refine (h.set fun i hi => ?_).concat (List.getElem?_set_self hslot)
  have := List.mem_range.mp hi
  omega

/-- What is stored at the same indices, in whatever order, are the same rays. -/
theorem perm (h : InSlots buffer base indices rays) (h' : InSlots buffer base indices' rays')
    (hindices : indices.Perm indices') : rays.Perm rays' := by
  have injective : Function.Injective fun x : Nat × ρ => (x.1, some x.2) := by
    rintro ⟨s, r⟩ ⟨s', r'⟩ h
    simpa using h
  refine (List.map_perm_map_iff injective).mp ?_
  rw [h, h']
  exact hindices.map _

end InSlots

/-! ## Accesses -/

namespace Run

variable {run : Run ρ} {w : Wavefront} {counter base slot count : Nat} {ray : ρ}

theorem read?_eq (hray : (run.device.buffer w)[slot]? = some ray) :
    run.read? w slot = some (ray, { run with record := { run.record with
      reads := Function.update run.record.reads w (run.record.reads w ++ [(slot, ray)]) } }) := by
  simp [read?, hray]

theorem bump?_eq (hcount : run.device.counters[counter]? = some count) :
    run.bump? counter = some (count, { run with device := { run.device with
      counters := run.device.counters.set counter (count + 1) } }) := by
  simp [bump?, hcount]

theorem append?_eq (hcount : run.device.counters[counter]? = some count)
    (hslot : base + count < (run.device.buffer w).length) :
    run.append? w counter base ray = some
      { device := { run.device with
          counters := run.device.counters.set counter (count + 1)
          buffer := Function.update run.device.buffer w
            ((run.device.buffer w).set (base + count) ray) }
        record := { run.record with
          writes := Function.update run.record.writes w
            (run.record.writes w ++ [(base + count, ray)]) } } := by
  simp [append?, bump?_eq hcount, write?, hslot]

end Run

/-! ## Orders -/

theorem exists_foldlM {α β : Type} {f : β → α → Option β} {whole : List α} (inv : List α → β → Prop)
    (next : ∀ done a rest s, whole = done ++ a :: rest → inv done s →
      ∃ s', f s a = some s' ∧ inv (done ++ [a]) s')
    {done rest : List α} {s : β} (hwhole : whole = done ++ rest) (hs : inv done s) :
    ∃ s', rest.foldlM f s = some s' ∧ inv whole s' := by
  induction rest generalizing done s with
  | nil => exact ⟨s, rfl, by simpa [hwhole] using hs⟩
  | cons a rest ih =>
    obtain ⟨s', hf, hs'⟩ := next done a rest s hwhole hs
    obtain ⟨final, hrest, hfinal⟩ := ih (by simp [hwhole]) hs'
    exact ⟨final, by simp [hf, hrest], hfinal⟩

theorem filter_lt_range {n m : Nat} (h : n ≤ m) :
    (List.range m).filter (· < n) = List.range n := by
  obtain ⟨k, rfl⟩ := Nat.exists_eq_add_of_le h
  rw [List.range_add, List.filter_append, List.filter_eq_self.mpr fun i hi => ?_,
    List.filter_eq_nil_iff.mpr fun i hi => ?_, List.append_nil]
  · obtain ⟨j, -, rfl⟩ := List.mem_map.mp hi
    simp
  · simpa using hi

variable {b : Behavior ρ} {c : Counters}

/-- What the threads of a grid for a count do, when those behind it do nothing: every index below
the count is taken once, whatever the order. -/
theorem exists_threads {step : Step} {count : Nat} {thread : Run ρ → Nat → Option (Run ρ)}
    {device : Device ρ} (inv : List Nat → Run ρ → Prop) (first : inv [] ⟨device, .nothing⟩)
    (live : ∀ taken index run, inv taken run → taken.length < count → index < count →
      ∃ run', thread run index = some run' ∧ inv (taken ++ [index]) run')
    (idle : ∀ taken index run, inv taken run → count ≤ index → thread run index = some run) :
    ∃ taken run, taken.Perm (List.range count) ∧
      threads? b step (.forCount count) thread device = some run ∧ inv taken run := by
  have taken : ((b.order step (.forCount count)).filter (· < count)).Perm (List.range count) := by
    have := (b.order_perm step (.forCount count)).filter (· < count)
    rwa [Grid.indices_forCount, filter_lt_range (Grid.le_threads_forCount count)] at this
  -- Along the order, the invariant is told the indices below the count that have come so far.
  suffices next : ∀ done index rest run, b.order step (.forCount count) = done ++ index :: rest →
      inv (done.filter (· < count)) run →
      ∃ run', thread run index = some run' ∧ inv ((done ++ [index]).filter (· < count)) run' by
    obtain ⟨run, hrun, hinv⟩ := exists_foldlM (fun done run => inv (done.filter (· < count)) run)
      next (List.nil_append _).symm first
    exact ⟨_, run, taken, hrun, hinv⟩
  intro done index rest run hwhole hinv
  by_cases hindex : index < count
  · have room : (done.filter (· < count)).length < count := by
      have := taken.length_eq
      simp only [hwhole, List.filter_append, List.filter_cons, hindex, decide_true, if_true,
        List.length_append, List.length_cons, List.length_range] at this
      omega
    simpa [List.filter_append, hindex] using live _ index run hinv room hindex
  · refine ⟨run, idle _ index run hinv (Nat.le_of_not_lt hindex), ?_⟩
    simpa [List.filter_append, hindex] using hinv

/-! ## The camera -/

/-- What the threads of the camera keep. -/
structure Filming (start : Device ρ) (taken : List Nat) (run : Run ρ) : Prop where
  grids : run.device.grids = start.grids
  length : run.device.counters.length = start.counters.length
  slots : ∀ w, (run.device.buffer w).length = (start.buffer w).length
  count : run.device.counters[0]? = some taken.length
  others : ∀ i, i ≠ 0 → run.device.counters[i]? = start.counters[i]?
  stored : InSlots (run.device.buffer .rays) 0 (List.range taken.length) (run.record.writes .rays)
  noShadow : run.record.writes .shadowRays = []
  noRead : ∀ w, run.record.reads w = []

theorem Filming.next {start : Device ρ} {taken : List Nat} {run : Run ρ} {index : Nat}
    (h : Filming start taken run) (ray : ρ) (room : taken.length < (start.buffer .rays).length) :
    ∃ run', run.append? .rays 0 0 ray = some run' ∧ Filming start (taken ++ [index]) run' := by
  have slot : 0 + taken.length < (run.device.buffer .rays).length := by
    rw [h.slots, Nat.zero_add]; exact room
  have counter : 0 < run.device.counters.length := (List.getElem?_eq_some_iff.mp h.count).1
  refine ⟨_, Run.append?_eq h.count slot, ?_⟩
  constructor
  case grids => exact h.grids
  case length => simpa using h.length
  case slots => intro w; cases w <;> simpa using h.slots _
  case count => simp [counter]
  case others => intro i hi; simpa [List.getElem?_set_ne hi.symm] using h.others i hi
  case stored => simpa using h.stored.push slot
  case noShadow => simpa using h.noShadow
  case noRead => exact h.noRead

/-- The camera adds as many rays as it has, one after another. -/
theorem exists_camera {count : Nat} (step : Step) (start : Device ρ)
    (hzero : start.counters[0]? = some 0) (hcount : count ≤ (start.buffer .rays).length) :
    ∃ run taken, threads? b step (.forCount count) (Run.camera? b c count) start = some run ∧
      taken.length = count ∧ Filming start taken run := by
  obtain ⟨taken, run, htaken, hrun, hfilming⟩ :
      ∃ taken run, taken.Perm (List.range count) ∧
        threads? b step (.forCount count) (Run.camera? b c count) start = some run ∧
          Filming start taken run := by
    refine exists_threads (Filming start) ?_ ?_ ?_
    · exact ⟨rfl, rfl, fun _ => rfl, by simpa using hzero, fun _ _ => rfl, .nil, rfl, fun _ => rfl⟩
    · intro taken index run h room hindex
      rw [Run.camera?, if_pos hindex]
      exact h.next (b.camera index) (Nat.lt_of_lt_of_le room hcount)
    · intro taken index run _ hindex
      rw [Run.camera?, if_neg (Nat.not_lt.mpr hindex)]
  exact ⟨run, taken, hrun, by simpa using htaken.length_eq, hfilming⟩

/-! ## Traces -/

/-- A trace reads all rays that there are, and writes none. -/
theorem exists_trace {w : Wavefront} {p : Pass} {start : Device ρ} {rays : List (Nat × ρ)}
    (step : Step)
    (hlive : start.counters[c.wavefront w p.depth]? = some rays.length)
    (hrays : InSlots (start.buffer w) (p.base w) (List.range rays.length) rays) :
    ∃ reads, reads.Perm rays ∧
      threads? b step (.forCount rays.length) (Run.trace? c w p) start
        = some ⟨start, ⟨Function.update (fun _ => []) w reads, fun _ => []⟩⟩ := by
  obtain ⟨taken, run, htaken, hrun, reads, hreads, rfl⟩ :
      ∃ taken run, taken.Perm (List.range rays.length) ∧
        threads? b step (.forCount rays.length) (Run.trace? c w p) start = some run ∧
          ∃ reads, InSlots (start.buffer w) (p.base w) taken reads ∧
            run = ⟨start, ⟨Function.update (fun _ => []) w reads, fun _ => []⟩⟩ := by
    refine exists_threads (fun taken run => ∃ reads,
      InSlots (start.buffer w) (p.base w) taken reads ∧
        run = ⟨start, ⟨Function.update (fun _ => []) w reads, fun _ => []⟩⟩) ?_ ?_ ?_
    · exact ⟨[], .nil, by simp [Record.nothing]⟩
    · rintro taken index _ ⟨reads, hreads, rfl⟩ - hindex
      obtain ⟨ray, hray⟩ := hrays.exists_getElem? (List.mem_range.mpr hindex)
      refine ⟨_, ?_, _, hreads.concat hray, rfl⟩
      simp [Run.trace?, hlive, hindex, Run.read?, hray]
    · rintro taken index _ ⟨reads, -, rfl⟩ hindex
      simp [Run.trace?, hlive, Nat.not_lt.mpr hindex]
  exact ⟨reads, hreads.perm hrays htaken, hrun⟩

/-! ## Shading -/

/-- The halves of the ray buffer do not meet. -/
theorem half_ne (d : Nat) {capacity i j : Nat} (hi : i < capacity) (hj : j < capacity) :
    d % 2 * capacity + i ≠ (d + 1) % 2 * capacity + j := by
  rcases Nat.mod_two_eq_zero_or_one d with h | h
  · rw [h, Nat.succ_mod_two_eq_one_iff.mpr h]
    omega
  · rw [h, Nat.succ_mod_two_eq_zero_iff.mpr h]
    omega

theorem half_lt (d : Nat) {capacity i : Nat} (hi : i < capacity) :
    d % 2 * capacity + i < 2 * capacity := by
  have := mod_two_mul_le d capacity
  omega

/-- What the threads that shade the rays of a depth keep, when they took some of the rays, `casts`
of which may have cast a shadow ray, and `settled` of which ended or went on. -/
structure Shading (c : Counters) (capacity d : Nat) (rays : List (Nat × ρ)) (start : Device ρ)
    (taken : List Nat) (casts settled : Nat) (run : Run ρ) : Prop where
  grids : run.device.grids = start.grids
  length : run.device.counters.length = start.counters.length
  slots : ∀ w, (run.device.buffer w).length = (start.buffer w).length
  next : run.device.counters[c.rays (d + 1)]? = some (run.record.writes .rays).length
  shadow : run.device.counters[c.shadowRays d]? = some (run.record.writes .shadowRays).length
  terminated : ∃ ended, run.device.counters[c.terminated d]? = some ended ∧
    (run.record.writes .rays).length + ended = settled
  others : ∀ i, i ≠ c.rays (d + 1) → i ≠ c.shadowRays d → i ≠ c.terminated d →
    run.device.counters[i]? = start.counters[i]?
  casts_le : (run.record.writes .shadowRays).length ≤ casts
  last : d + 1 = c.maxDepth → ∀ w, run.record.writes w = []
  /-- The rays that are shaded are still there. -/
  kept : InSlots (run.device.buffer .rays) (d % 2 * capacity) (List.range rays.length) rays
  read : InSlots (run.device.buffer .rays) (d % 2 * capacity) taken (run.record.reads .rays)
  noShadowRead : run.record.reads .shadowRays = []
  written : InSlots (run.device.buffer .rays) ((d + 1) % 2 * capacity)
    (List.range (run.record.writes .rays).length) (run.record.writes .rays)
  shadowWritten : InSlots (run.device.buffer .shadowRays) 0
    (List.range (run.record.writes .shadowRays).length) (run.record.writes .shadowRays)

namespace Shading

variable {capacity d casts settled : Nat} {rays : List (Nat × ρ)} {start : Device ρ}
  {taken : List Nat} {run : Run ρ}

/-- How many rays there are to shade does not change. -/
theorem count (h : Shading c capacity d rays start taken casts settled run) (hd : d < c.maxDepth) :
    run.device.counters[c.rays d]? = start.counters[c.rays d]? :=
  h.others _ (Nat.ne_of_lt (Nat.lt_succ_self d))
    (Counters.shadowRays_ne_rays (Nat.le_of_lt hd)).symm
    (Counters.terminated_ne_rays (Nat.le_of_lt hd)).symm

/-- A thread finds its ray. -/
theorem read? {index : Nat} (h : Shading c capacity d rays start taken casts settled run)
    (hindex : index < rays.length) :
    ∃ ray run', run.read? .rays (d % 2 * capacity + index) = some (ray, run') ∧
      Shading c capacity d rays start (taken ++ [index]) casts settled run' := by
  obtain ⟨ray, hray⟩ := h.kept.exists_getElem? (List.mem_range.mpr hindex)
  refine ⟨ray, _, Run.read?_eq hray, ?_⟩
  exact { h with
    read := by simpa using h.read.concat hray
    noShadowRead := by simpa using h.noShadowRead }

/-- A thread adds a shadow ray. -/
theorem addShadow? (h : Shading c capacity d rays start taken casts settled run)
    (hd : d < c.maxDepth) (hroom : casts < (start.buffer .shadowRays).length)
    (hlast : d + 1 ≠ c.maxDepth) (ray : ρ) :
    ∃ run', run.append? .shadowRays (c.shadowRays d) 0 ray = some run' ∧
      Shading c capacity d rays start taken (casts + 1) settled run' := by
  have slot : 0 + (run.record.writes .shadowRays).length
      < (run.device.buffer .shadowRays).length := by
    rw [h.slots, Nat.zero_add]
    exact Nat.lt_of_le_of_lt h.casts_le hroom
  have counter := (List.getElem?_eq_some_iff.mp h.shadow).1
  have next : c.shadowRays d ≠ c.rays (d + 1) := Counters.shadowRays_ne_rays hd
  have ended : c.shadowRays d ≠ c.terminated d := Counters.shadowRays_ne_terminated hd
  refine ⟨_, Run.append?_eq h.shadow slot, ?_⟩
  constructor
  case grids => exact h.grids
  case length => simpa using h.length
  case slots => intro w; cases w <;> simpa using h.slots _
  case next => simpa [List.getElem?_set_ne next] using h.next
  case shadow => simp [counter]
  case terminated => simpa [List.getElem?_set_ne ended] using h.terminated
  case others =>
    intro i hi hs ht
    simpa [List.getElem?_set_ne hs.symm] using h.others i hi hs ht
  case casts_le => simpa using h.casts_le
  case last => exact fun last => (hlast last).elim
  case kept => simpa using h.kept
  case read => simpa using h.read
  case noShadowRead => exact h.noShadowRead
  case written => simpa using h.written
  case shadowWritten => simpa using h.shadowWritten.push slot

/-- The ray of a thread ends. -/
theorem terminate? (h : Shading c capacity d rays start taken casts settled run)
    (hd : d < c.maxDepth) :
    ∃ count run', run.bump? (c.terminated d) = some (count, run') ∧
      Shading c capacity d rays start taken casts (settled + 1) run' := by
  obtain ⟨ended, hended, hsettled⟩ := h.terminated
  have counter := (List.getElem?_eq_some_iff.mp hended).1
  have next : c.terminated d ≠ c.rays (d + 1) := Counters.terminated_ne_rays hd
  have shadow : c.terminated d ≠ c.shadowRays d := (Counters.shadowRays_ne_terminated hd).symm
  refine ⟨ended, _, Run.bump?_eq hended, ?_⟩
  exact { h with
    length := by simpa using h.length
    next := by simpa [List.getElem?_set_ne next] using h.next
    shadow := by simpa [List.getElem?_set_ne shadow] using h.shadow
    terminated := ⟨ended + 1, by simp [counter], by simp only; omega⟩
    others := fun i hi hs ht => by
      simpa [List.getElem?_set_ne ht.symm] using h.others i hi hs ht }

/-- The ray of a thread goes on. The half it is written to is not the one that is read. -/
theorem bounce? (h : Shading c capacity d rays start taken casts settled run)
    (hd : d < c.maxDepth) (hslots : (start.buffer .rays).length = 2 * capacity)
    (hrays : rays.length ≤ capacity) (htaken : ∀ i ∈ taken, i < rays.length)
    (hroom : settled < rays.length) (hlast : d + 1 ≠ c.maxDepth) (ray : ρ) :
    ∃ run', run.append? .rays (c.rays (d + 1)) ((d + 1) % 2 * capacity) ray = some run' ∧
      Shading c capacity d rays start taken casts (settled + 1) run' := by
  obtain ⟨ended, hended, hsettled⟩ := h.terminated
  have room : (run.record.writes .rays).length < capacity := by omega
  have slot : (d + 1) % 2 * capacity + (run.record.writes .rays).length
      < (run.device.buffer .rays).length := by
    rw [h.slots, hslots]
    exact half_lt _ room
  have apart : ∀ i < rays.length,
      d % 2 * capacity + i ≠ (d + 1) % 2 * capacity + (run.record.writes .rays).length :=
    fun i hi => half_ne d (Nat.lt_of_lt_of_le hi hrays) room
  have counter := (List.getElem?_eq_some_iff.mp h.next).1
  have shadow : c.rays (d + 1) ≠ c.shadowRays d := (Counters.shadowRays_ne_rays hd).symm
  have terminated : c.rays (d + 1) ≠ c.terminated d := (Counters.terminated_ne_rays hd).symm
  refine ⟨_, Run.append?_eq h.next slot, ?_⟩
  constructor
  case grids => exact h.grids
  case length => simpa using h.length
  case slots => intro w; cases w <;> simpa using h.slots _
  case next => simp [counter]
  case shadow => simpa [List.getElem?_set_ne shadow] using h.shadow
  case terminated =>
    refine ⟨ended, by simpa [List.getElem?_set_ne terminated] using hended, ?_⟩
    simp only [Function.update_self, List.length_append, List.length_singleton]
    omega
  case others =>
    intro i hi hs ht
    simpa [List.getElem?_set_ne hi.symm] using h.others i hi hs ht
  case casts_le => simpa using h.casts_le
  case last => exact fun last => (hlast last).elim
  case kept => simpa using h.kept.set fun i hi => apart i (List.mem_range.mp hi)
  case read => simpa using h.read.set fun i hi => apart i (htaken i hi)
  case noShadowRead => exact h.noShadowRead
  case written => simpa using h.written.push slot
  case shadowWritten => simpa using h.shadowWritten

theorem cast? (h : Shading c capacity d rays start taken casts settled run) (hd : d < c.maxDepth)
    (hroom : casts < (start.buffer .shadowRays).length) {shadow : Option ρ}
    (hlast : d + 1 = c.maxDepth → shadow = none) :
    ∃ run', run.cast? c (passOf c capacity d .rays) shadow = some run' ∧
      Shading c capacity d rays start taken (casts + 1) settled run' := by
  cases shadow with
  | none => exact ⟨run, rfl, { h with casts_le := Nat.le_succ_of_le h.casts_le }⟩
  | some ray => exact h.addShadow? hd hroom (fun last => nomatch hlast last) ray

theorem settle? (h : Shading c capacity d rays start taken casts settled run)
    (hd : d < c.maxDepth) (hslots : (start.buffer .rays).length = 2 * capacity)
    (hrays : rays.length ≤ capacity) (htaken : ∀ i ∈ taken, i < rays.length)
    (hroom : settled < rays.length) {next : Option ρ} (hlast : d + 1 = c.maxDepth → next = none) :
    ∃ run', run.settle? c (passOf c capacity d .rays) next = some run' ∧
      Shading c capacity d rays start taken casts (settled + 1) run' := by
  cases next with
  | none =>
    obtain ⟨count, run', hbump, h'⟩ := h.terminate? hd
    exact ⟨run', congrArg (Option.map Prod.snd) hbump, h'⟩
  | some ray =>
    exact h.bounce? hd hslots hrays htaken hroom (fun last => nomatch hlast last) ray

/-- A thread that shades reads its ray, casts and settles. -/
theorem shade? {index : Nat} (h : Shading c capacity d rays start taken settled settled run)
    (hd : d < c.maxDepth) (hslots : ∀ w, (start.buffer w).length = slotCount capacity w)
    (hrays : rays.length ≤ capacity) (hlive : start.counters[c.rays d]? = some rays.length)
    (htaken : ∀ i ∈ taken, i < rays.length) (hindex : index < rays.length)
    (hroom : settled < rays.length) :
    ∃ run', run.shade? b c (passOf c capacity d .rays) index = some run' ∧
      Shading c capacity d rays start (taken ++ [index]) (settled + 1) (settled + 1) run' := by
  have live := (h.count hd).trans hlive
  obtain ⟨ray, read, hread, h⟩ := h.read? hindex
  obtain ⟨outcome, houtcome⟩ : ∃ outcome, outcome =
      if (passOf c capacity d .rays).isLast then ⟨none, none⟩
      else b.shade d index read.device ray := ⟨_, rfl⟩
  have last (hlast : d + 1 = c.maxDepth) : outcome = ⟨none, none⟩ := by
    simp [houtcome, passOf, hlast]
  have shadowRoom : settled < (start.buffer .shadowRays).length := by
    rw [hslots]
    exact Nat.lt_of_lt_of_le hroom hrays
  have takenRoom : ∀ i ∈ taken ++ [index], i < rays.length := by
    simpa [or_imp, forall_and, hindex] using htaken
  obtain ⟨cast, hcast, h⟩ := h.cast? hd shadowRoom fun l => congrArg Outcome.shadow (last l)
  obtain ⟨final, hfinal, h⟩ :=
    h.settle? hd (hslots .rays) hrays takenRoom hroom fun l => congrArg Outcome.next (last l)
  refine ⟨final, ?_, h⟩
  simp only [Run.shade?, show (passOf c capacity d .rays).depth = d from rfl, live,
    show (passOf c capacity d .rays).base .rays = d % 2 * capacity from rfl, hread, ← houtcome,
    Option.bind_eq_bind, Option.bind_some, hindex, if_true, hcast, hfinal]

end Shading

/-- Shading takes every ray of a depth, each of which ends or goes on. -/
theorem exists_shade {capacity d : Nat} {rays : List (Nat × ρ)} {start : Device ρ} (step : Step)
    (hd : d < c.maxDepth) (hslots : ∀ w, (start.buffer w).length = slotCount capacity w)
    (hrays : rays.length ≤ capacity) (hlive : start.counters[c.rays d]? = some rays.length)
    (hnext : start.counters[c.rays (d + 1)]? = some 0)
    (hshadow : start.counters[c.shadowRays d]? = some 0)
    (hterminated : start.counters[c.terminated d]? = some 0)
    (hstored : InSlots (start.buffer .rays) (d % 2 * capacity) (List.range rays.length) rays) :
    ∃ taken run, taken.Perm (List.range rays.length) ∧
      threads? b step (.forCount rays.length) (Run.shade? b c (passOf c capacity d .rays)) start
        = some run ∧
      Shading c capacity d rays start taken rays.length rays.length run := by
  obtain ⟨taken, run, htaken, hrun, -, h⟩ :
      ∃ taken run, taken.Perm (List.range rays.length) ∧
        threads? b step (.forCount rays.length) (Run.shade? b c (passOf c capacity d .rays)) start
          = some run ∧
        (∀ i ∈ taken, i < rays.length) ∧
          Shading c capacity d rays start taken taken.length taken.length run := by
    refine exists_threads (fun taken run => (∀ i ∈ taken, i < rays.length) ∧
      Shading c capacity d rays start taken taken.length taken.length run) ?_ ?_ ?_
    · refine ⟨by simp, ?_⟩
      constructor
      case terminated => exact ⟨0, hterminated, rfl⟩
      case others => exact fun _ _ _ _ => rfl
      case kept => exact hstored
      all_goals first | rfl | assumption | exact fun _ => rfl | exact fun _ _ => rfl
    · rintro taken index run ⟨htaken, h⟩ hroom hindex
      obtain ⟨run', hrun, h'⟩ := h.shade? (b := b) hd hslots hrays hlive htaken hindex hroom
      refine ⟨run', hrun, ?_, by simpa using h'⟩
      simpa [or_imp, forall_and, hindex] using htaken
    · rintro taken index run ⟨-, h⟩ hindex
      have live := (h.count hd).trans hlive
      simp [Run.shade?, passOf, live, Nat.not_lt.mpr hindex]
  have : taken.length = rays.length := by simpa using htaken.length_eq
  rw [this] at h
  exact ⟨taken, run, htaken, hrun, h⟩

end Candela.Frame
