import Candela.Frame.Statistics
import Candela.Proofs.Frame.Wave

/-!
# Conservation of rays

A frame loses no ray (`plan_conserves`). `Progress` is a frame up to a depth: the next `Wave` is in
the memory, and all that was read so far is what had been written for its depth. The camera begins
it, every depth carries it on, and at the end of the plan it says what is `Conserved`, which is what
a report looks for.
-/

namespace Candela.Frame

variable {ρ : Type} {b : Behavior ρ} {c : Counters} {capacity count d : Nat} {device : Device ρ}

/-! ## What a frame must be -/

/-- Nothing is lost in a frame that began with some rays. -/
structure Conserved (c : Counters) (capacity count : Nat) (clear : Bool)
    (moments : List (Moment ρ)) (final : Device ρ) : Prop where
  /-- The steps are those of the plan. -/
  steps : moments.map Moment.step = plan c clear
  sized : ∀ m ∈ moments, m.Sized c
  inside : ∀ m ∈ moments, m.Inside capacity
  /-- A step reads what was written for its depth, as it was written. -/
  reads : ∀ m ∈ moments, ∀ w depth pass, m.step.launch = some (w, depth, pass) →
    (m.record.reads w).Perm (filled moments w depth)
  camera : final.counters[c.rays 0]? = some count
  /-- Every ray of a depth ended there or went on. -/
  bounce : ∀ depth < c.maxDepth, ∃ next ended,
    final.counters[c.rays depth]? = some (next + ended) ∧
      final.counters[c.rays (depth + 1)]? = some next ∧
      final.counters[c.terminated depth]? = some ended
  /-- After the last depth there are no rays. -/
  last : 0 < c.maxDepth →
    filled moments .rays c.maxDepth = [] ∧ final.counters[c.rays c.maxDepth]? = some 0
  /-- The last depth casts no shadow rays, which would not be traced. -/
  lastShadow : ∀ depth, depth + 1 = c.maxDepth → filled moments .shadowRays depth = []
  bounded : ∀ v ∈ final.counters, v ≤ capacity
  report : ∀ nanoseconds, (Report.ofCounters c final.counters nanoseconds).violations = []

/-! ## The plan -/

/-- A frame up to a depth. -/
structure Progress (c : Counters) (capacity count d : Nat) (moments : List (Moment ρ))
    (device : Device ρ) : Prop where
  wave : Wave c capacity count d device (filled moments .rays d)
  later : ∀ e, d < e → filled moments .rays e = []
  shadowLater : ∀ e, d ≤ e → filled moments .shadowRays e = []
  lastShadow : ∀ e, e + 1 = c.maxDepth → filled moments .shadowRays e = []
  sized : ∀ m ∈ moments, m.Sized c
  inside : ∀ m ∈ moments, m.Inside capacity
  reads : ∀ m ∈ moments, ∀ w depth pass, m.step.launch = some (w, depth, pass) →
    depth < d ∧ (m.record.reads w).Perm (filled moments w depth)

/-- One more depth. -/
theorem Progress.exists_next {moments : List (Moment ρ)}
    (h : Progress c capacity count d moments device) (hd : d < c.maxDepth) :
    ∃ new final,
      run? b c (passes c capacity) count (depthSteps c.maxDepth d) device = some (new, final) ∧
        Progress c capacity count (d + 1) (moments ++ new) final := by
  obtain ⟨new, final, next, shadows, hrun, wave, hfilled, hlast, hsound⟩ :=
    h.wave.exists_depth (b := b) hd
  refine ⟨new, final, hrun, ?_⟩
  have here : filled (moments ++ new) .rays d = filled moments .rays d := by
    simp [hfilled, held]
  have shadowsHere : filled (moments ++ new) .shadowRays d = shadows := by
    simp [hfilled, held, h.shadowLater d (Nat.le_refl d)]
  constructor
  case wave => simpa [hfilled, held, h.later (d + 1) (Nat.lt_succ_self d)] using wave
  case later =>
    intro e he
    simp [hfilled, held, h.later e (by omega), Nat.ne_of_gt he]
  case shadowLater =>
    intro e he
    simp [hfilled, held, h.shadowLater e (by omega), Nat.ne_of_gt he]
  case lastShadow =>
    intro e he
    have : (if e = d then shadows else []) = [] := by
      split
      next heq => exact hlast (heq ▸ he)
      next => rfl
    simp [hfilled, held, h.lastShadow e he, this]
  case sized =>
    intro m hm
    exact (List.mem_append.mp hm).elim (h.sized m) fun hm => (hsound m hm).sized
  case inside =>
    intro m hm
    exact (List.mem_append.mp hm).elim (h.inside m) fun hm => (hsound m hm).inside
  case reads =>
    intro m hm w e pass hlaunch
    rcases List.mem_append.mp hm with hm | hm
    · -- What was read before is not written again.
      obtain ⟨he, hreads⟩ := h.reads m hm w e pass hlaunch
      refine ⟨Nat.lt_succ_of_lt he, ?_⟩
      have : filled new w e = [] := by
        cases w <;> simp [hfilled, held, Nat.ne_of_lt he, show e ≠ d + 1 by omega]
      simpa [this] using hreads
    · obtain ⟨rfl, hreads⟩ := (hsound m hm).reads w e pass hlaunch
      refine ⟨Nat.lt_succ_self e, ?_⟩
      cases w with
      | rays => exact here ▸ hreads
      | shadowRays => exact shadowsHere ▸ hreads

/-- The depths that come first. -/
theorem Progress.exists_depths {moments : List (Moment ρ)}
    (h : Progress c capacity count 0 moments device) (hd : d ≤ c.maxDepth) :
    ∃ new final,
      run? b c (passes c capacity) count
          ((List.range d).flatMap (depthSteps c.maxDepth)) device = some (new, final) ∧
        Progress c capacity count d (moments ++ new) final := by
  induction d with
  | zero => exact ⟨[], device, rfl, by simpa using h⟩
  | succ d ih =>
    obtain ⟨new, middle, hrun, progress⟩ := ih (Nat.le_of_succ_le hd)
    obtain ⟨new', final, hrun', progress'⟩ := progress.exists_next (b := b) hd
    refine ⟨new ++ new', final, ?_, by simpa using progress'⟩
    rw [List.range_succ, List.flatMap_append, List.flatMap_singleton]
    exact run?_append hrun hrun'

/-- A step that neither reads nor writes a ray. -/
theorem Progress.idle {moments : List (Moment ρ)}
    (h : Progress c capacity count d moments device) {m : Moment ρ} (hstep : m.step.launch = none)
    (hrecord : m.record = .nothing) : Progress c capacity count d (moments ++ [m]) device := by
  have hfilled : ∀ w e, filled (moments ++ [m]) w e = filled moments w e := by
    intro w e
    simp [filled_cons, hrecord, Record.nothing]
  constructor
  case wave => rw [hfilled]; exact h.wave
  case later => exact fun e he => (hfilled _ e).trans (h.later e he)
  case shadowLater => exact fun e he => (hfilled _ e).trans (h.shadowLater e he)
  case lastShadow => exact fun e he => (hfilled _ e).trans (h.lastShadow e he)
  case sized => simpa [or_imp, forall_and, m.sized_of_launch hstep] using h.sized
  case inside => simpa [or_imp, forall_and, m.inside_of_nothing hrecord] using h.inside
  case reads =>
    intro m' hm' w e pass hlaunch
    rw [hfilled]
    rcases List.mem_append.mp hm' with hm' | hm'
    · exact h.reads m' hm' w e pass hlaunch
    · rw [List.mem_singleton.mp hm', hstep] at hlaunch
      cases hlaunch

/-- What comes before the camera clears the counters, and neither reads nor writes a ray. -/
theorem exists_clear (passes : List Pass) (count : Nat) (device : Device ρ) (clear : Bool) :
    ∃ moments,
      run? b c passes count
          (.clearCounters :: if clear then [.clearAccumulation] else []) device
        = some (moments, { device with counters := device.counters.map fun _ => 0 }) ∧
        ∀ m ∈ moments, m.step.launch = none ∧ m.record = .nothing := by
  cases clear with
  | false => exact ⟨_, rfl, by simp [Step.launch]⟩
  | true => exact ⟨_, rfl, by simp [Step.launch]⟩

/-- The camera begins the first wave. -/
theorem Filming.wave {taken : List Nat} {run : Run ρ}
    (h : Filming { device with counters := device.counters.map fun _ => 0 } taken run)
    (hdevice : device.Fresh c capacity) (hcapacity : taken.length ≤ capacity) :
    Wave c capacity taken.length 0 run.device (run.record.writes .rays) := by
  have length : (run.record.writes .rays).length = taken.length := by
    simpa using h.stored.length
  have zero : ∀ i, i ≠ 0 → i < c.length → run.device.counters[i]? = some 0 := by
    intro i hi hlt
    rw [h.others i hi, List.getElem?_map, List.getElem?_eq_getElem (hdevice.counters ▸ hlt)]
    rfl
  constructor
  case grids => simp [h.grids, hdevice.grids]
  case slots => exact fun w => (h.slots w).trans (hdevice.buffer w)
  case live => rw [length]; exact h.count
  case stored => simpa [length] using h.stored
  case later =>
    intro e he hle
    refine zero _ (Nat.ne_of_gt he) ?_
    simp only [Counters.rays, Counters.length]; omega
  case unshaded =>
    intro e he hlt
    constructor
    · refine zero _ ?_ ?_ <;> simp only [Counters.shadowRays, Counters.length] <;> omega
    · refine zero _ ?_ ?_ <;> simp only [Counters.terminated, Counters.length] <;> omega
  case first => exact h.count
  case bounce => exact fun e he => (Nat.not_lt_zero e he).elim
  case last => exact fun he => (Nat.lt_irrefl 0 he).elim
  case bounded =>
    intro i v hv
    by_cases hi : i = 0
    · rw [hi, h.count, Option.some_inj] at hv
      omega
    · rw [h.others i hi, List.getElem?_map, Option.map_eq_some_iff] at hv
      obtain ⟨-, -, rfl⟩ := hv
      exact Nat.zero_le _

/-- The steps before the first depth. -/
theorem Progress.exists_first (hdevice : device.Fresh c capacity) (hcount : count ≤ capacity)
    (clear : Bool) :
    ∃ moments final,
      run? b c (passes c capacity) count
          ((.clearCounters :: if clear then [.clearAccumulation] else []) ++ [.generateRays]) device
        = some (moments, final) ∧ Progress c capacity count 0 moments final := by
  obtain ⟨moments, hclear, hidle⟩ :=
    exists_clear (b := b) (c := c) (passes c capacity) count device clear
  have zero : (device.counters.map fun _ => 0)[0]? = some 0 := by
    have : 0 < device.counters.length := hdevice.counters ▸ Nat.succ_pos _
    rw [List.getElem?_map, List.getElem?_eq_getElem this]
    rfl
  have room : count ≤ (device.buffer .rays).length := by
    rw [hdevice.buffer, slotCount]
    omega
  obtain ⟨run, taken, hrun, rfl, filming⟩ :=
    exists_camera (b := b) (c := c) .generateRays
      { device with counters := device.counters.map fun _ => 0 } zero room
  have nothing : ∀ w e, filled moments w e = [] := by
    intro w e
    refine List.flatMap_eq_nil_iff.mpr fun m hm => ?_
    rw [(hidle m hm).2]
    split <;> rfl
  refine ⟨_, run.device, run?_append hclear (run?_cons hrun rfl), ?_⟩
  constructor
  case wave => simpa [filled_cons, Step.fills, nothing] using filming.wave hdevice hcount
  case later =>
    intro e he
    simp [filled_cons, Step.fills, nothing, Nat.ne_of_lt he]
  case shadowLater =>
    intro e he
    simp [filled_cons, Step.fills, nothing]
  case lastShadow =>
    intro e he
    simp [filled_cons, Step.fills, nothing]
  case sized =>
    intro m hm
    rcases List.mem_append.mp hm with hm | hm
    · exact m.sized_of_launch (hidle m hm).1
    · rw [List.mem_singleton.mp hm]
      exact Moment.sized_of_launch _ rfl
  case inside =>
    intro m hm
    rcases List.mem_append.mp hm with hm | hm
    · exact m.inside_of_nothing (hidle m hm).2
    · rw [List.mem_singleton.mp hm]
      exact filming.inside hcount
  case reads =>
    intro m hm w e pass hlaunch
    rcases List.mem_append.mp hm with hm | hm
    · cases (hidle m hm).1.symm.trans hlaunch
    · rw [List.mem_singleton.mp hm] at hlaunch
      cases hlaunch

/-! ## Reports -/

/-- A report has no violations if every ray ends or goes on. -/
theorem Report.violations_eq_nil {values : List Nat} (nanoseconds : Nat)
    (hbounce : ∀ depth < c.maxDepth, ∃ next ended,
      values[c.rays depth]? = some (next + ended) ∧ values[c.rays (depth + 1)]? = some next ∧
        values[c.terminated depth]? = some ended) :
    (Report.ofCounters c values nanoseconds).violations = [] := by
  have rays : c.depths ++ [c.maxDepth] = List.range (c.maxDepth + 1) := List.range_succ.symm
  rw [violations, List.filter_eq_nil_iff]
  intro depth hdepth
  have hlt : depth < c.maxDepth := by
    simpa [ofCounters, Counters.depths] using hdepth
  obtain ⟨next, ended, hrays, hnext, hended⟩ := hbounce depth hlt
  simp only [ofCounters, rays]
  simp [Counters.depths, hlt, Nat.lt_succ_of_lt hlt, hrays, hnext, hended]

/-- Nothing is lost in a frame that got to the last depth. -/
theorem Progress.conserved {moments : List (Moment ρ)} {clear : Bool}
    (h : Progress c capacity count c.maxDepth moments device)
    (hsteps : moments.map Moment.step = plan c clear) :
    Conserved c capacity count clear moments device where
  steps := hsteps
  sized := h.sized
  inside := h.inside
  reads := fun m hm w depth pass hlaunch => (h.reads m hm w depth pass hlaunch).2
  camera := h.wave.first
  bounce := h.wave.bounce
  last := by
    intro hpos
    have empty := h.wave.last hpos rfl
    exact ⟨empty, by rw [h.wave.live, empty]; rfl⟩
  lastShadow := h.lastShadow
  bounded := by
    intro v hv
    obtain ⟨i, hi⟩ := List.mem_iff_getElem?.mp hv
    exact h.wave.bounded i v hi
  report := fun nanoseconds => Report.violations_eq_nil nanoseconds h.wave.bounce

/-! ## Main result -/

/-- A frame conserves rays, whatever is in the scene, however its rays are shaded, in whatever order
its threads come, and whatever the last frame left in the memory: its plan runs to the end, and
nothing is lost. The counters are told apart by their indices, and where their number is a word, so
is all that the passes are told. -/
theorem plan_conserves (c : Counters) {capacity count : Nat} (clear : Bool)
    (hcapacity : 2 * capacity < wordValues) (hcount : count ≤ capacity) (b : Behavior ρ)
    {device : Device ρ} (hdevice : device.Fresh c capacity) :
    (∃ moments final,
      run? b c (passes c capacity) count (plan c clear) device = some (moments, final) ∧
        Conserved c capacity count clear moments final) ∧
      c.indices = List.range c.length ∧
      (Counters.ofDepth c.maxDepth = .ok c →
        ∀ p ∈ passes c capacity, ∀ word ∈ p.words, word < wordValues) := by
  refine ⟨?_, c.indices_eq_range, fun hwords p hp word => ?_⟩
  · obtain ⟨moments, middle, hfirst, first⟩ := Progress.exists_first (b := b) hdevice hcount clear
    obtain ⟨new, final, hdepths, progress⟩ := first.exists_depths (b := b) (Nat.le_refl c.maxDepth)
    have resolve : run? b c (passes c capacity) count [.resolveImage] final
        = some ([⟨final, .resolveImage, .nothing⟩], final) := rfl
    have whole : run? b c (passes c capacity) count (plan c clear) device
        = some (moments ++ new ++ [⟨final, .resolveImage, .nothing⟩], final) := by
      simpa [plan, Counters.depths] using run?_append (run?_append hfirst hdepths) resolve
    exact ⟨_, final, whole, (progress.idle rfl rfl).conserved (step_of_run? whole)⟩
  · exact Pass.word_lt_of_mem_passes (Counters.length_lt_of_ofDepth hwords) hcapacity hp

/-- A scene in which even rays cast a shadow ray and go on, and odd ones end. Threads come
backwards. -/
def parity : Behavior Nat where
  camera index := index
  shade _ _ _ ray := if ray % 2 = 0 then ⟨some ray, some (ray + 1)⟩ else ⟨none, none⟩
  order _ g := g.indices.reverse
  order_perm _ g := g.indices.reverse_perm

/-- Memory with nines left in it. -/
def nines : Device Nat where
  counters := List.replicate 10 9
  grids := List.replicate 6 none
  buffer w := List.replicate (slotCount 4 w) 9

theorem fresh_nines : nines.Fresh ⟨3⟩ 4 where
  counters := rfl
  grids := rfl
  buffer _ := List.length_replicate

theorem parity_conserves :
    2 * 4 < wordValues ∧ 3 ≤ 4 ∧ nines.Fresh ⟨3⟩ 4 ∧
      ∃ moments final,
        run? parity ⟨3⟩ (passes ⟨3⟩ 4) 3 (plan ⟨3⟩ true) nines = some (moments, final) ∧
          Conserved ⟨3⟩ 4 3 true moments final :=
  ⟨by decide, by decide, fresh_nines,
    (plan_conserves ⟨3⟩ true (by decide) (by decide) parity fresh_nines).1⟩

/-- Two of three rays go on once. -/
example :
    (run? parity ⟨3⟩ (passes ⟨3⟩ 4) 3 (plan ⟨3⟩ true) nines).map (·.2.counters)
      = some [3, 2, 0, 0, 2, 0, 0, 1, 2, 0] := by
  decide +kernel

end Candela.Frame
