import Candela.Frame.Plan

/-!
# Frame statistics

The counters of a frame say how many rays there were at every depth. Every ray at a depth either
ends there or goes on, which a report checks. Reports are averaged over intervals.
-/

namespace Candela.Frame

/-- The counters of a frame. -/
structure Report where
  /-- The rays at every depth and after the last one. -/
  rays : List Nat
  shadowRays : List Nat
  /-- The rays that ended at every depth. -/
  terminated : List Nat
  /-- How long the frame took, in nanoseconds. -/
  nanoseconds : Nat

namespace Report

/-- The report of some counters; one that is missing counts as zero. -/
def ofCounters (c : Counters) (values : List Nat) (nanoseconds : Nat) : Report :=
  let read (index : Nat) : Nat := values.getD index 0
  { rays := (c.depths ++ [c.maxDepth]).map fun d => read (c.rays d)
    shadowRays := c.depths.map fun d => read (c.shadowRays d)
    terminated := c.depths.map fun d => read (c.terminated d)
    nanoseconds }

/-- The depths at which the rays are not those that end and those that go on. -/
def violations (r : Report) : List Nat :=
  (List.range r.terminated.length).filter fun d =>
    r.rays.getD d 0 ≠ r.rays.getD (d + 1) 0 + r.terminated.getD d 0

/-- All rays. -/
def totalRays (r : Report) : Nat := r.rays.foldl (· + ·) 0

/-- All shadow rays. -/
def totalShadowRays (r : Report) : Nat := r.shadowRays.foldl (· + ·) 0

end Report

/-! ## Averages -/

/-- The sums of two lists; what is missing in one of them counts as zero. -/
def addLists : List Nat → List Nat → List Nat
  | [], ys => ys
  | xs, [] => xs
  | x :: xs, y :: ys => (x + y) :: addLists xs ys

/-- Averages over an interval. -/
structure Average where
  frames : Nat
  rays : List Float
  shadowRays : List Float
  nanoseconds : Nat

/-- The sums over the frames of an interval so far. -/
structure Accumulator where
  /-- How many frames an interval has, at least one. -/
  interval : Nat
  frames : Nat
  rays : List Nat
  shadowRays : List Nat
  nanoseconds : Nat

namespace Accumulator

/-- No frames yet. -/
def start (interval : Nat) : Accumulator := ⟨max interval 1, 0, [], [], 0⟩

/-- The interval that is used unless another one is asked for. -/
def standardInterval : Nat := 100

/-- The sums with one more frame. -/
def add (a : Accumulator) (r : Report) : Accumulator :=
  { a with
    frames := a.frames + 1
    rays := addLists a.rays r.rays
    shadowRays := addLists a.shadowRays r.shadowRays
    nanoseconds := a.nanoseconds + r.nanoseconds }

/-- A sum over some frames as an average. -/
def mean (frames sum : Nat) : Float := Float.ofNat sum / Float.ofNat frames

/-- The averages of the frames. -/
def average (a : Accumulator) : Average :=
  ⟨a.frames, a.rays.map (mean a.frames), a.shadowRays.map (mean a.frames), a.nanoseconds / a.frames⟩

/-- Adds a frame; the averages if it is the last one of an interval, after which a new one
begins. -/
def push (a : Accumulator) (r : Report) : Option Average × Accumulator :=
  let a := a.add r
  if a.frames < a.interval then (none, a) else (some a.average, .start a.interval)

end Accumulator

end Candela.Frame
