import Candela.Frame.Plan
import Mathlib.Logic.Function.Basic

/-!
# The device of a frame

What the steps of a frame do to the memory they work on: the counters, the grids, and the buffers
of the two kinds of rays. What a ray holds, which rays there are, how a ray is shaded and in which
order the threads of a step come is left to a `Behavior`, so that nothing said of all behaviors
depends on a scene. An access outside of a buffer, and the launch of a grid that was not made in
this frame, have no result.

`run?` records every step with the memory it began in, what it read and what it wrote. The answers
of traces and the accumulated image are no part of the memory, since no step is sized by them.
-/

namespace Candela.Frame

variable {ρ : Type}

/-! ## Memory -/

/-- What a grid was made from: the counter, and the count that was in it. -/
structure Sizing where
  counter : Nat
  count : Nat
  deriving DecidableEq

/-- The memory of a frame. -/
structure Device (ρ : Type) where
  counters : List Nat
  /-- The grids; none for one that is not of this frame. -/
  grids : List (Option Sizing)
  /-- The buffers of the two kinds of rays. -/
  buffer : Wavefront → List ρ

/-- The slots that were read and written, with the rays in them. -/
structure Record (ρ : Type) where
  reads : Wavefront → List (Nat × ρ)
  writes : Wavefront → List (Nat × ρ)

/-- Nothing read or written. -/
def Record.nothing : Record ρ := ⟨fun _ => [], fun _ => []⟩

/-- A step that is running: the memory, and what the step did so far. -/
structure Run (ρ : Type) where
  device : Device ρ
  record : Record ρ

namespace Run

/-- Reads a slot of a buffer. -/
def read? (run : Run ρ) (w : Wavefront) (slot : Nat) : Option (ρ × Run ρ) := do
  let ray ← (run.device.buffer w)[slot]?
  return (ray, { run with record := { run.record with
    reads := Function.update run.record.reads w (run.record.reads w ++ [(slot, ray)]) } })

/-- Adds one to a counter, and what was in it. -/
def bump? (run : Run ρ) (counter : Nat) : Option (Nat × Run ρ) := do
  let count ← run.device.counters[counter]?
  return (count, { run with device := { run.device with
    counters := run.device.counters.set counter (count + 1) } })

/-- Writes a slot of a buffer. -/
def write? (run : Run ρ) (w : Wavefront) (slot : Nat) (ray : ρ) : Option (Run ρ) :=
  if slot < (run.device.buffer w).length then
    some
      { device := { run.device with
          buffer := Function.update run.device.buffer w ((run.device.buffer w).set slot ray) }
        record := { run.record with
          writes := Function.update run.record.writes w (run.record.writes w ++ [(slot, ray)]) } }
  else none

/-- Adds a ray to those that a counter counts, which begin at a base. -/
def append? (run : Run ρ) (w : Wavefront) (counter base : Nat) (ray : ρ) : Option (Run ρ) := do
  let (count, run) ← run.bump? counter
  run.write? w (base + count) ray

end Run

/-! ## Threads -/

/-- The indices of the threads of a grid. -/
def Grid.indices (g : Grid) : List Nat :=
  (List.range g.z).flatMap fun _ => (List.range g.y).flatMap fun y =>
    (List.range (g.x * groupSize)).map fun x => g.index x y

/-- What comes of a ray that is shaded: a shadow ray if it casts one, and the ray that goes on;
none if it ends. -/
structure Outcome (ρ : Type) where
  shadow : Option ρ
  next : Option ρ

/-- What is not told by a plan. -/
structure Behavior (ρ : Type) where
  /-- The rays of the camera. -/
  camera : Nat → ρ
  /-- What comes of the ray that a thread shades at a depth. -/
  shade : (depth index : Nat) → Device ρ → ρ → Outcome ρ
  /-- The order in which the threads of a step come. -/
  order : Step → Grid → List Nat
  order_perm : ∀ step g, (order step g).Perm g.indices

namespace Counters

/-- The counter of a kind of rays at a depth. -/
def wavefront (c : Counters) : Wavefront → Nat → Nat
  | .rays => c.rays
  | .shadowRays => c.shadowRays

end Counters

/-- Where the rays of a pass begin; the shadow rays of all depths use the same slots. -/
def Pass.base (p : Pass) : Wavefront → Nat
  | .rays => p.currentBase
  | .shadowRays => 0

namespace Run

/-- What a thread of the camera does: it adds its ray, of `count` ones. -/
def camera? (b : Behavior ρ) (c : Counters) (count : Nat) (run : Run ρ) (index : Nat) :
    Option (Run ρ) :=
  if index < count then run.append? .rays (c.rays 0) 0 (b.camera index) else some run

/-- What a thread of a trace does: it reads its ray if there is one. The same goes for what shades
shadow rays. -/
def trace? (c : Counters) (w : Wavefront) (p : Pass) (run : Run ρ) (index : Nat) :
    Option (Run ρ) := do
  let live ← run.device.counters[c.wavefront w p.depth]?
  if index < live then return (← run.read? w (p.base w + index)).2 else return run

/-- Adds the shadow ray of an outcome. -/
def cast? (c : Counters) (p : Pass) (run : Run ρ) : Option ρ → Option (Run ρ)
  | none => some run
  | some ray => run.append? .shadowRays (c.shadowRays p.depth) 0 ray

/-- Adds the ray that goes on to those of the next depth, or counts one that ends. -/
def settle? (c : Counters) (p : Pass) (run : Run ρ) : Option ρ → Option (Run ρ)
  | none => (run.bump? (c.terminated p.depth)).map Prod.snd
  | some ray => run.append? .rays (c.rays (p.depth + 1)) p.nextBase ray

/-- What a thread that shades does: it reads its ray if there is one, which casts a shadow ray or
none, and ends or goes on. At the last depth it only ends. -/
def shade? (b : Behavior ρ) (c : Counters) (p : Pass) (run : Run ρ) (index : Nat) :
    Option (Run ρ) := do
  let live ← run.device.counters[c.rays p.depth]?
  if index < live then
    let (ray, run) ← run.read? .rays (p.base .rays + index)
    let outcome := if p.isLast then ⟨none, none⟩ else b.shade p.depth index run.device ray
    let run ← run.cast? c p outcome.shadow
    run.settle? c p outcome.next
  else return run

end Run

/-! ## Steps -/

/-- Runs the threads of a grid. -/
def threads? (b : Behavior ρ) (step : Step) (g : Grid) (thread : Run ρ → Nat → Option (Run ρ))
    (device : Device ρ) : Option (Run ρ) :=
  (b.order step g).foldlM thread ⟨device, .nothing⟩

/-- Runs the threads of a pass, as many as its grid was made for. -/
def launch? (b : Behavior ρ) (passes : List Pass) (step : Step) (pass : Nat)
    (thread : Pass → Run ρ → Nat → Option (Run ρ)) (device : Device ρ) : Option (Run ρ) := do
  let p ← passes[pass]?
  let sizing ← (← device.grids[pass]?)
  threads? b step (.forCount sizing.count) (thread p) device

/-- Makes the grid of a pass out of its counter. -/
def sizeGrid? (passes : List Pass) (pass : Nat) (device : Device ρ) : Option (Run ρ) := do
  let p ← passes[pass]?
  let count ← device.counters[p.counter]?
  if p.argsSlot < device.grids.length then
    return ⟨{ device with grids := device.grids.set p.argsSlot (some ⟨p.counter, count⟩) },
      .nothing⟩
  else none

/-- What a step does; the camera has `count` rays. -/
def step? (b : Behavior ρ) (c : Counters) (passes : List Pass) (count : Nat) (device : Device ρ)
    (step : Step) : Option (Run ρ) :=
  match step with
  | .clearCounters =>
    some ⟨{ device with counters := device.counters.map fun _ => 0 }, .nothing⟩
  | .clearAccumulation | .resolveImage => some ⟨device, .nothing⟩
  | .generateRays => threads? b step (.forCount count) (Run.camera? b c count) device
  | .dispatchArgs pass => sizeGrid? passes pass device
  | .traceNearest _ pass => launch? b passes step pass (Run.trace? c .rays) device
  | .shade _ pass => launch? b passes step pass (Run.shade? b c) device
  | .traceShadow _ pass | .shadeShadow _ pass =>
    launch? b passes step pass (Run.trace? c .shadowRays) device

/-- A step that ran, with the memory it began in. -/
structure Moment (ρ : Type) where
  before : Device ρ
  step : Step
  record : Record ρ

/-- Runs steps one after another: the moments, and the memory in the end. -/
def run? (b : Behavior ρ) (c : Counters) (passes : List Pass) (count : Nat) :
    List Step → Device ρ → Option (List (Moment ρ) × Device ρ)
  | [], device => some ([], device)
  | step :: steps, device => do
    let run ← step? b c passes count device step
    let (moments, final) ← run? b c passes count steps run.device
    return (⟨device, step, run.record⟩ :: moments, final)

/-! ## What moments tell -/

/-- The kind of rays that a step works on, their depth, and the pass whose grid is launched. -/
def Step.launch : Step → Option (Wavefront × Nat × Nat)
  | .traceNearest depth pass | .shade depth pass => some (.rays, depth, pass)
  | .traceShadow depth pass | .shadeShadow depth pass => some (.shadowRays, depth, pass)
  | _ => none

/-- The depth whose rays of a kind a step is there to write. -/
def Step.fills : Step → Wavefront → Option Nat
  | .generateRays, .rays => some 0
  | .shade depth _, .rays => some (depth + 1)
  | .shade depth _, .shadowRays => some depth
  | _, _ => none

/-- What was written of the rays of a kind at a depth. -/
def filled (moments : List (Moment ρ)) (w : Wavefront) (depth : Nat) : List (Nat × ρ) :=
  moments.flatMap fun m => if m.step.fills w = some depth then m.record.writes w else []

/-- How many slots there are for a kind of rays; both halves for those that bounce. -/
def slotCount (capacity : Nat) : Wavefront → Nat
  | .rays => 2 * capacity
  | .shadowRays => capacity

/-- The memory in which a frame begins: of the right size, with whatever the last frame left behind,
and no grid of this frame. -/
structure Device.Fresh (c : Counters) (capacity : Nat) (device : Device ρ) : Prop where
  counters : device.counters.length = c.length
  grids : device.grids = List.replicate (2 * c.maxDepth) none
  buffer : ∀ w, (device.buffer w).length = slotCount capacity w

end Candela.Frame
