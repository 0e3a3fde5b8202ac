import Candela.Proofs.Frame.Threads

/-!
# The steps of a depth

`Wave` is what the memory is like before the steps of a depth: the rays that were written for it
stand in its half of the ray buffer, its counter counts them, and nothing of the later depths was
counted yet. The steps of a depth go from one wave to the next (`Wave.exists_depth`). Each of them
is `Moment.Sound`: a launch has the grid that was made for its own rays, reads all of them, and
stays inside of the buffers.
-/

namespace Candela.Frame

variable {ρ : Type} {b : Behavior ρ} {c : Counters} {capacity count d : Nat} {device : Device ρ}

/-! ## What a moment must be -/

/-- The grid that a step launches was made in this frame, from the counter of the rays it works on,
and for as many of them as there are. -/
def Moment.Sized (c : Counters) (m : Moment ρ) : Prop :=
  ∀ w depth pass, m.step.launch = some (w, depth, pass) →
    ∃ live, m.before.grids[pass]? = some (some ⟨c.wavefront w depth, live⟩) ∧
      m.before.counters[c.wavefront w depth]? = some live

/-- A step stays inside of the buffers, and writes no slot twice. -/
def Moment.Inside (capacity : Nat) (m : Moment ρ) : Prop :=
  ∀ w, ((m.record.writes w).map Prod.fst).Nodup ∧
    ∀ x ∈ m.record.reads w ++ m.record.writes w, x.1 < slotCount capacity w

/-! ## Grids -/

/-- The memory after the grid of a kind of rays at a depth was made for some of them. -/
def Device.sized (device : Device ρ) (c : Counters) (w : Wavefront) (d live : Nat) : Device ρ :=
  { device with grids := device.grids.set (passIndex d w) (some ⟨c.wavefront w d, live⟩) }

variable {w : Wavefront} {live : Nat}

theorem step?_dispatchArgs (hd : d < c.maxDepth) (hgrids : device.grids.length = 2 * c.maxDepth)
    (hlive : device.counters[c.wavefront w d]? = some live) :
    step? b c (passes c capacity) count device (.dispatchArgs (passIndex d w))
      = some ⟨device.sized c w d live, .nothing⟩ := by
  have slot : (passOf c capacity d w).argsSlot < device.grids.length := by
    rw [hgrids]
    exact passIndex_lt w hd
  simp only [step?, sizeGrid?, passes_getElem? w hd, passOf_counter, Option.bind_eq_bind,
    Option.bind_some, hlive, if_pos slot]
  rfl

theorem Device.sized_grids (hd : d < c.maxDepth) (hgrids : device.grids.length = 2 * c.maxDepth) :
    (device.sized c w d live).grids[passIndex d w]? = some (some ⟨c.wavefront w d, live⟩) :=
  List.getElem?_set_self (hgrids ▸ passIndex_lt w hd)

theorem launch?_sized {step : Step} {thread : Pass → Run ρ → Nat → Option (Run ρ)}
    (hd : d < c.maxDepth) (hgrids : device.grids.length = 2 * c.maxDepth) :
    launch? b (passes c capacity) step (passIndex d w) thread (device.sized c w d live)
      = threads? b step (.forCount live) (thread (passOf c capacity d w))
          (device.sized c w d live) := by
  simp [launch?, passes_getElem? w hd, Device.sized_grids hd hgrids]

/-! ## Before a depth -/

/-- The memory before the steps of a depth, for which the given rays were written. -/
structure Wave (c : Counters) (capacity count d : Nat) (device : Device ρ)
    (rays : List (Nat × ρ)) : Prop where
  grids : device.grids.length = 2 * c.maxDepth
  slots : ∀ w, (device.buffer w).length = slotCount capacity w
  live : device.counters[c.rays d]? = some rays.length
  stored : InSlots (device.buffer .rays) (d % 2 * capacity) (List.range rays.length) rays
  later : ∀ e, d < e → e ≤ c.maxDepth → device.counters[c.rays e]? = some 0
  unshaded : ∀ e, d ≤ e → e < c.maxDepth →
    device.counters[c.shadowRays e]? = some 0 ∧ device.counters[c.terminated e]? = some 0
  first : device.counters[c.rays 0]? = some count
  bounce : ∀ e < d, ∃ next ended, device.counters[c.rays e]? = some (next + ended) ∧
    device.counters[c.rays (e + 1)]? = some next ∧ device.counters[c.terminated e]? = some ended
  last : 0 < d → d = c.maxDepth → rays = []
  bounded : ∀ i v : Nat, device.counters[i]? = some v → v ≤ capacity

namespace Wave

variable {rays : List (Nat × ρ)} {taken : List Nat} {run : Run ρ}

/-- Grids are no part of what a depth begins with. -/
theorem sized (h : Wave c capacity count d device rays) (w : Wavefront) (e live : Nat) :
    Wave c capacity count d (device.sized c w e live) rays :=
  { h with grids := by simpa [Device.sized] using h.grids }

/-- The memory after the rays of a depth were shaded is that before the next one. -/
theorem shaded (h : Wave c capacity count d device rays) (hd : d < c.maxDepth)
    (shading : Shading c capacity d rays device taken rays.length rays.length run) :
    Wave c capacity count (d + 1) run.device (run.record.writes .rays) := by
  obtain ⟨ended, hended, hsettled⟩ := shading.terminated
  have fits := h.bounded _ _ h.live
  -- Shading counts in three counters, of which the next depth begins with one.
  have keptRays : ∀ e ≤ c.maxDepth, e ≠ d + 1 →
      run.device.counters[c.rays e]? = device.counters[c.rays e]? := fun e he hne =>
    shading.others _ hne (Counters.shadowRays_ne_rays he).symm
      (Counters.terminated_ne_rays he).symm
  have keptShadow : ∀ e < c.maxDepth, e ≠ d →
      run.device.counters[c.shadowRays e]? = device.counters[c.shadowRays e]? := fun e he hne =>
    shading.others _ (Counters.shadowRays_ne_rays hd)
      (fun heq => hne (Nat.add_left_cancel heq)) (Counters.shadowRays_ne_terminated he)
  have keptTerminated : ∀ e ≠ d,
      run.device.counters[c.terminated e]? = device.counters[c.terminated e]? := fun e hne =>
    shading.others _ (Counters.terminated_ne_rays hd) (Counters.shadowRays_ne_terminated hd).symm
      (fun heq => hne (Nat.add_left_cancel heq))
  constructor
  case grids => rw [shading.grids, h.grids]
  case slots => exact fun w => (shading.slots w).trans (h.slots w)
  case live => exact shading.next
  case stored => exact shading.written
  case later =>
    intro e he hle
    rw [keptRays e hle (Nat.ne_of_gt he)]
    exact h.later e (Nat.lt_of_succ_lt he) hle
  case unshaded =>
    intro e he hlt
    have hne : e ≠ d := Nat.ne_of_gt he
    rw [keptShadow e hlt hne, keptTerminated e hne]
    exact h.unshaded e (Nat.le_of_succ_le he) hlt
  case first => rw [keptRays 0 (Nat.zero_le _) (Nat.succ_ne_zero d).symm, h.first]
  case bounce =>
    intro e he
    have hle : e ≤ c.maxDepth := by omega
    rw [keptRays e hle (Nat.ne_of_lt he)]
    rcases Nat.lt_succ_iff_lt_or_eq.mp he with hlt | rfl
    · rw [keptRays (e + 1) (by omega) (by omega), keptTerminated e (Nat.ne_of_lt hlt)]
      exact h.bounce e hlt
    · exact ⟨_, ended, by rw [hsettled, h.live], shading.next, hended⟩
  case last => exact fun _ hlast => shading.last hlast .rays
  case bounded =>
    intro i v hv
    by_cases next : i = c.rays (d + 1)
    · rw [next, shading.next, Option.some_inj] at hv
      omega
    by_cases shadow : i = c.shadowRays d
    · have := shading.casts_le
      rw [shadow, shading.shadow, Option.some_inj] at hv
      omega
    by_cases terminated : i = c.terminated d
    · rw [terminated, hended, Option.some_inj] at hv
      omega
    exact h.bounded i v ((shading.others i next shadow terminated).symm.trans hv)

end Wave

/-! ## Moments -/

@[simp] theorem filled_nil (w : Wavefront) (e : Nat) : filled ([] : List (Moment ρ)) w e = [] := rfl

@[simp] theorem filled_append (moments moments' : List (Moment ρ)) (w : Wavefront) (e : Nat) :
    filled (moments ++ moments') w e = filled moments w e ++ filled moments' w e :=
  List.flatMap_append

theorem filled_cons (m : Moment ρ) (moments : List (Moment ρ)) (w : Wavefront) (e : Nat) :
    filled (m :: moments) w e
      = (if m.step.fills w = some e then m.record.writes w else []) ++ filled moments w e :=
  List.flatMap_cons

/-- A moment among the steps of a depth, at which some rays are there to read. -/
structure Moment.Sound (c : Counters) (capacity d : Nat) (held : Wavefront → List (Nat × ρ))
    (m : Moment ρ) : Prop where
  sized : m.Sized c
  inside : m.Inside capacity
  reads : ∀ w depth pass, m.step.launch = some (w, depth, pass) →
    depth = d ∧ (m.record.reads w).Perm (held w)

theorem Moment.sized_of_launch (m : Moment ρ) (hstep : m.step.launch = none) : m.Sized c :=
  fun _ _ _ h => nomatch hstep.symm.trans h

theorem Moment.inside_of_nothing (m : Moment ρ) (hrecord : m.record = .nothing) :
    m.Inside capacity :=
  fun w => by simp [hrecord, Record.nothing]

namespace Moment.Sound

variable {held : Wavefront → List (Nat × ρ)} {step : Step}

theorem idle {m : Moment ρ} (hstep : m.step.launch = none) (hrecord : m.record = .nothing) :
    m.Sound c capacity d held where
  sized := m.sized_of_launch hstep
  inside := m.inside_of_nothing hrecord
  reads := fun _ _ _ h => nomatch hstep.symm.trans h

/-- A launch after its grid was made is sound, if it reads what there is to read and writes inside
of the buffers. -/
theorem launched {record : Record ρ} (hstep : step.launch = some (w, d, passIndex d w))
    (hd : d < c.maxDepth) (hgrids : device.grids.length = 2 * c.maxDepth)
    (hlive : device.counters[c.wavefront w d]? = some live)
    (hreads : (record.reads w).Perm (held w))
    (hinside : Inside capacity ⟨device.sized c w d live, step, record⟩) :
    Sound c capacity d held ⟨device.sized c w d live, step, record⟩ where
  sized := by
    intro w' e pass h
    rw [hstep] at h
    cases h
    exact ⟨live, Device.sized_grids hd hgrids, hlive⟩
  inside := hinside
  reads := by
    intro w' e pass h
    rw [hstep] at h
    cases h
    exact ⟨rfl, hreads⟩

/-- A trace is sound if it reads what there is to read. -/
theorem trace {reads : List (Nat × ρ)} (hstep : step.launch = some (w, d, passIndex d w))
    (hd : d < c.maxDepth) (hgrids : device.grids.length = 2 * c.maxDepth)
    (hlive : device.counters[c.wavefront w d]? = some live) (hreads : reads.Perm (held w))
    (hheld : ∀ x ∈ held w, x.1 < slotCount capacity w) :
    Sound c capacity d held
      ⟨device.sized c w d live, step, Function.update (fun _ => []) w reads, fun _ => []⟩ := by
  refine launched hstep hd hgrids hlive (by simpa using hreads) fun v => ?_
  by_cases hv : v = w
  · subst hv
    simpa using fun s ray h => hheld (s, ray) (hreads.mem_iff.mp h)
  · simp [Function.update_of_ne hv]

end Moment.Sound

/-- The camera stays inside of the buffers. -/
theorem Filming.inside {start : Device ρ} {taken : List Nat} {run : Run ρ} {step : Step}
    {before : Device ρ} (h : Filming start taken run) (hcapacity : taken.length ≤ capacity) :
    Moment.Inside capacity ⟨before, step, run.record⟩ := by
  have written : ∀ x ∈ run.record.writes .rays, x.1 < 2 * capacity := h.stored.lt <| by
    intro i hi
    have := List.mem_range.mp hi
    omega
  intro w
  cases w with
  | rays => exact ⟨h.stored.nodup, by simpa [h.noRead, slotCount] using written⟩
  | shadowRays => simp [h.noRead, h.noShadow]

/-- What shades stays inside of the buffers. -/
theorem Shading.inside {rays : List (Nat × ρ)} {start : Device ρ} {run : Run ρ} {taken : List Nat}
    {step : Step} {before : Device ρ}
    (h : Shading c capacity d rays start taken rays.length rays.length run)
    (htaken : ∀ i ∈ taken, i < rays.length) (hrays : rays.length ≤ capacity) :
    Moment.Inside capacity ⟨before, step, run.record⟩ := by
  obtain ⟨ended, -, hsettled⟩ := h.terminated
  have read : ∀ x ∈ run.record.reads .rays, x.1 < 2 * capacity := h.read.lt fun i hi =>
    half_lt d (Nat.lt_of_lt_of_le (htaken i hi) hrays)
  have written : ∀ x ∈ run.record.writes .rays, x.1 < 2 * capacity := h.written.lt <| by
    intro i hi
    have := List.mem_range.mp hi
    exact half_lt (d + 1) (by omega)
  have shadow : ∀ x ∈ run.record.writes .shadowRays, x.1 < capacity := h.shadowWritten.lt <| by
    intro i hi
    have := List.mem_range.mp hi
    have := h.casts_le
    omega
  intro w
  cases w with
  | rays =>
    refine ⟨h.written.nodup, fun x hx => ?_⟩
    exact (List.mem_append.mp hx).elim (read x) (written x)
  | shadowRays =>
    refine ⟨h.shadowWritten.nodup, fun x hx => ?_⟩
    rw [show run.record.reads .shadowRays = [] from h.noShadowRead, List.nil_append] at hx
    exact shadow x hx

/-! ## Runs -/

section Runs

variable {passes : List Pass} {steps steps' : List Step} {moments moments' : List (Moment ρ)}
  {final final' : Device ρ}

theorem run?_cons {step : Step} {run : Run ρ}
    (hstep : step? b c passes count device step = some run)
    (hsteps : run? b c passes count steps run.device = some (moments, final)) :
    run? b c passes count (step :: steps) device
      = some (⟨device, step, run.record⟩ :: moments, final) := by
  simp [run?, hstep, hsteps]

theorem run?_append (hsteps : run? b c passes count steps device = some (moments, final))
    (hsteps' : run? b c passes count steps' final = some (moments', final')) :
    run? b c passes count (steps ++ steps') device = some (moments ++ moments', final') := by
  induction steps generalizing device moments with
  | nil =>
    obtain ⟨rfl, rfl⟩ : [] = moments ∧ device = final := by simpa [run?] using hsteps
    exact hsteps'
  | cons step steps ih =>
    simp only [run?, Option.bind_eq_bind, Option.bind_eq_some_iff, Option.pure_def,
      Option.some_inj, Prod.mk.injEq] at hsteps
    obtain ⟨run, hstep, ⟨rest, last⟩, hrest, rfl, rfl⟩ := hsteps
    exact run?_cons hstep (ih hrest)

/-- A run takes the steps that it was given. -/
theorem step_of_run? (hsteps : run? b c passes count steps device = some (moments, final)) :
    moments.map Moment.step = steps := by
  induction steps generalizing device moments with
  | nil =>
    obtain ⟨rfl, -⟩ : [] = moments ∧ device = final := by simpa [run?] using hsteps
    rfl
  | cons step steps ih =>
    simp only [run?, Option.bind_eq_bind, Option.bind_eq_some_iff, Option.pure_def,
      Option.some_inj, Prod.mk.injEq] at hsteps
    obtain ⟨run, -, ⟨rest, last⟩, hrest, rfl, rfl⟩ := hsteps
    rw [List.map_cons, ih hrest]

end Runs

/-! ## The steps of a depth -/

/-- The rays that are there to be read at a depth. -/
def held (rays shadows : List (Nat × ρ)) : Wavefront → List (Nat × ρ)
  | .rays => rays
  | .shadowRays => shadows

/-- The rays of a depth are traced and shaded. -/
theorem Wave.exists_bounce {rays : List (Nat × ρ)} (h : Wave c capacity count d device rays)
    (hd : d < c.maxDepth) :
    ∃ moments final next shadows,
      run? b c (passes c capacity) count
          [.dispatchArgs (passIndex d .rays), .traceNearest d (passIndex d .rays),
            .shade d (passIndex d .rays)] device = some (moments, final) ∧
        Wave c capacity count (d + 1) final next ∧
        (∀ w e, filled moments w e = held (if e = d + 1 then next else [])
          (if e = d then shadows else []) w) ∧
        (d + 1 = c.maxDepth → shadows = []) ∧
        (∀ shadows', ∀ m ∈ moments, m.Sound c capacity d (held rays shadows')) ∧
        final.counters[c.shadowRays d]? = some shadows.length ∧
        InSlots (final.buffer .shadowRays) 0 (List.range shadows.length) shadows := by
  have h' := h.sized .rays d rays.length
  have fits := h.bounded _ _ h.live
  obtain ⟨reads, hreads, htrace⟩ := exists_trace (b := b) (c := c) (w := .rays)
    (p := passOf c capacity d .rays) (.traceNearest d (passIndex d .rays)) h'.live h'.stored
  obtain ⟨taken, run, htaken, hshade, shading⟩ :=
    exists_shade (b := b) (.shade d (passIndex d .rays)) hd h'.slots fits h'.live
      (h'.later (d + 1) (Nat.lt_succ_self d) hd) (h'.unshaded d (Nat.le_refl d) hd).1
      (h'.unshaded d (Nat.le_refl d) hd).2 h'.stored
  have live : device.counters[c.wavefront .rays d]? = some rays.length := h.live
  have inside : ∀ x ∈ rays, x.1 < slotCount capacity .rays := h.stored.lt fun i hi =>
    half_lt d (Nat.lt_of_lt_of_le (List.mem_range.mp hi) fits)
  have takenLt : ∀ i ∈ taken, i < rays.length := fun i hi =>
    List.mem_range.mp (htaken.mem_iff.mp hi)
  refine ⟨_, _, run.record.writes .rays, run.record.writes .shadowRays,
    run?_cons (step?_dispatchArgs hd h.grids live)
      (run?_cons ((launch?_sized hd h.grids).trans htrace)
        (run?_cons ((launch?_sized hd h.grids).trans hshade) rfl)),
    h'.shaded hd shading, ?_, fun last => shading.last last .shadowRays, ?_, shading.shadow,
    shading.shadowWritten⟩
  · intro w e
    cases w <;> simp [filled_cons, Step.fills, held, eq_comm]
  · intro shadows' m hm
    simp only [List.mem_cons, List.not_mem_nil, or_false] at hm
    rcases hm with rfl | rfl | rfl
    · exact .idle rfl rfl
    · exact .trace rfl hd h.grids live hreads inside
    · exact .launched rfl hd h.grids live (shading.read.perm shading.kept htaken)
        (shading.inside takenLt fits)

/-- The shadow rays of a depth are traced and shaded. -/
theorem exists_shadows {shadows : List (Nat × ρ)} (count : Nat) (rays : List (Nat × ρ))
    (hd : d < c.maxDepth)
    (hgrids : device.grids.length = 2 * c.maxDepth)
    (hlive : device.counters[c.shadowRays d]? = some shadows.length)
    (hshadows : InSlots (device.buffer .shadowRays) 0 (List.range shadows.length) shadows)
    (hfits : shadows.length ≤ capacity) :
    ∃ moments,
      run? b c (passes c capacity) count
          [.dispatchArgs (passIndex d .shadowRays), .traceShadow d (passIndex d .shadowRays),
            .shadeShadow d (passIndex d .shadowRays)] device
        = some (moments, device.sized c .shadowRays d shadows.length) ∧
        (∀ w e, filled moments w e = []) ∧
        ∀ m ∈ moments, m.Sound c capacity d (held rays shadows) := by
  have live : device.counters[c.wavefront .shadowRays d]? = some shadows.length := hlive
  have inside : ∀ x ∈ shadows, x.1 < slotCount capacity .shadowRays := hshadows.lt fun i hi => by
    rw [Nat.zero_add]
    exact Nat.lt_of_lt_of_le (List.mem_range.mp hi) hfits
  have trace (step : Step) : ∃ reads, reads.Perm shadows ∧
      threads? b step (.forCount shadows.length)
          (Run.trace? c .shadowRays (passOf c capacity d .shadowRays))
          (device.sized c .shadowRays d shadows.length)
        = some ⟨device.sized c .shadowRays d shadows.length,
            Function.update (fun _ => []) .shadowRays reads, fun _ => []⟩ :=
    exists_trace step hlive hshadows
  obtain ⟨reads, hreads, htrace⟩ := trace (.traceShadow d (passIndex d .shadowRays))
  obtain ⟨reads', hreads', hshade⟩ := trace (.shadeShadow d (passIndex d .shadowRays))
  refine ⟨_, run?_cons (step?_dispatchArgs hd hgrids live)
    (run?_cons ((launch?_sized hd hgrids).trans htrace)
      (run?_cons ((launch?_sized hd hgrids).trans hshade) rfl)), ?_, ?_⟩
  · intro w e
    cases w <;> simp [filled_cons, Step.fills]
  · intro m hm
    simp only [List.mem_cons, List.not_mem_nil, or_false] at hm
    rcases hm with rfl | rfl | rfl
    · exact .idle rfl rfl
    · exact .trace rfl hd hgrids live hreads inside
    · exact .trace rfl hd hgrids live hreads' inside

/-- The steps of a depth go from one wave to the next. They read the rays of the wave and the shadow
rays that come of them, and write the rays of the next wave. -/
theorem Wave.exists_depth {rays : List (Nat × ρ)} (h : Wave c capacity count d device rays)
    (hd : d < c.maxDepth) :
    ∃ moments final next shadows,
      run? b c (passes c capacity) count (depthSteps c.maxDepth d) device = some (moments, final) ∧
        Wave c capacity count (d + 1) final next ∧
        (∀ w e, filled moments w e = held (if e = d + 1 then next else [])
          (if e = d then shadows else []) w) ∧
        (d + 1 = c.maxDepth → shadows = []) ∧
        ∀ m ∈ moments, m.Sound c capacity d (held rays shadows) := by
  obtain ⟨moments, middle, next, shadows, hbounce, wave, hfilled, hlast, hsound, hlive, hstored⟩ :=
    h.exists_bounce (b := b) hd
  -- The shadow rays of the last depth have no steps, and there are none.
  by_cases last : d + 1 < c.maxDepth
  · obtain ⟨moments', hshadows, hfilled', hsound'⟩ := exists_shadows (b := b) count rays hd
      wave.grids hlive hstored (wave.bounded _ _ hlive)
    refine ⟨moments ++ moments', _, next, shadows, ?_, wave.sized .shadowRays d shadows.length, ?_,
      hlast, ?_⟩
    · rw [depthSteps, if_pos last]
      exact run?_append hbounce hshadows
    · simpa [hfilled'] using hfilled
    · intro m hm
      exact (List.mem_append.mp hm).elim (hsound shadows m) (hsound' m)
  · refine ⟨moments, middle, next, shadows, ?_, wave, hfilled, hlast, hsound shadows⟩
    rw [depthSteps, if_neg last, List.append_nil]
    exact hbounce

end Candela.Frame
