import Candela.Capacity
import Candela.Frame.Dispatch

/-!
# Frame plans

A frame is a fixed sequence of steps that follows from the number of bounces alone. At every depth
the live rays are traced and shaded, which counts them, writes the rays of the next depth into the
other half of the ray buffer, and writes shadow rays, which are then traced and shaded as well.
Every pass has a block of words that tells it where its rays and its counter are. A frame has only
as many bounces as leave the counters in reach of a word (`Counters.ofDepth`).
-/

namespace Candela.Frame

/-- The counters of a frame with the given number of bounces: the rays at every depth and after the
last one, the shadow rays, and the rays that ended. -/
structure Counters where
  maxDepth : Nat
  deriving DecidableEq

namespace Counters

/-- The counter of the rays at a depth. -/
def rays (_ : Counters) (depth : Nat) : Nat := depth

/-- The counter of the shadow rays at a depth. -/
def shadowRays (c : Counters) (depth : Nat) : Nat := c.maxDepth + 1 + depth

/-- The counter of the rays that end at a depth. -/
def terminated (c : Counters) (depth : Nat) : Nat := 2 * c.maxDepth + 1 + depth

/-- How many counters there are. -/
def length (c : Counters) : Nat := 3 * c.maxDepth + 1

/-- The counters for a number of bounces. Their number is a word. -/
def ofDepth (maxDepth : Nat) : Except Error Counters := do
  let _ ← inWord (Counters.mk maxDepth).length
  return ⟨maxDepth⟩

/-- Bytes of the counters: a word each. -/
def bytes (c : Counters) : Nat := c.length * 4

/-- The depths. -/
def depths (c : Counters) : List Nat := List.range c.maxDepth

end Counters

/-! ## Passes -/

/-- The two kinds of rays that are traced. -/
inductive Wavefront where
  | rays
  | shadowRays
  deriving DecidableEq

/-- The pass of a kind of rays at a depth. -/
def passIndex (depth : Nat) : Wavefront → Nat
  | .rays => 2 * depth
  | .shadowRays => 2 * depth + 1

/-- What a pass is told. -/
structure Pass where
  depth : Nat
  /-- Where the half of the ray buffer begins that is read. -/
  currentBase : Nat
  /-- Where the half begins that is written. -/
  nextBase : Nat
  /-- The counter of the rays of the pass. -/
  counter : Nat
  /-- Where the grid of the pass is. -/
  argsSlot : Nat
  /-- Whether no rays may be written. -/
  isLast : Bool
  deriving DecidableEq

/-- The pass of a kind of rays at a depth; a half of the ray buffer has room for `capacity` rays. -/
def passOf (c : Counters) (capacity depth : Nat) (w : Wavefront) : Pass where
  depth := depth
  currentBase := depth % 2 * capacity
  nextBase := (depth + 1) % 2 * capacity
  counter := match w with
    | .rays => c.rays depth
    | .shadowRays => c.shadowRays depth
  argsSlot := passIndex depth w
  isLast := depth + 1 = c.maxDepth

/-- The passes of a frame, in the order of their indices. -/
def passes (c : Counters) (capacity : Nat) : List Pass :=
  c.depths.flatMap fun d => [passOf c capacity d .rays, passOf c capacity d .shadowRays]

/-! ## Bytes -/

/-- Bytes from one block to the next. -/
def passStride : Nat := 256

/-- The bytes of a word, the lowest first. -/
def wordBytes (w : UInt32) : List UInt8 :=
  [w.toUInt8, (w >>> 8).toUInt8, (w >>> 16).toUInt8, (w >>> 24).toUInt8]

/-- The words of a pass. -/
def Pass.words (p : Pass) : List Nat :=
  [p.depth, p.currentBase, p.nextBase, p.counter, p.argsSlot, if p.isLast then 1 else 0]

/-- A list of bytes filled up with zeros. -/
def padded (length : Nat) (bytes : List UInt8) : List UInt8 :=
  bytes ++ List.replicate (length - bytes.length) 0

/-- The block of a pass. -/
def Pass.block (p : Pass) : List UInt8 :=
  padded passStride (p.words.flatMap fun w => wordBytes w.toUInt32)

/-- The blocks of some passes; room for one where there is none. -/
def passBytes (passes : List Pass) : List UInt8 := padded passStride (passes.flatMap Pass.block)

/-- Where the block of a pass begins. -/
def passOffset (pass : Nat) : Nat := pass * passStride % wordValues

/-- Where a grid begins. -/
def argsOffset (slot : Nat) : Nat := slot * Grid.bytes

/-! ## Steps -/

/-- A step of a frame. -/
inductive Step where
  | clearCounters
  | clearAccumulation
  | generateRays
  /-- Makes the grid of a pass out of the counter of its rays. -/
  | dispatchArgs (pass : Nat)
  | traceNearest (depth pass : Nat)
  | shade (depth pass : Nat)
  | traceShadow (depth pass : Nat)
  | shadeShadow (depth pass : Nat)
  | resolveImage
  deriving DecidableEq

/-- The steps at a depth. At the last one no rays are written, so there are no shadow rays to
trace. -/
def depthSteps (maxDepth depth : Nat) : List Step :=
  let rays := passIndex depth .rays
  let shadow := passIndex depth .shadowRays
  [.dispatchArgs rays, .traceNearest depth rays, .shade depth rays] ++
    if depth + 1 < maxDepth then
      [.dispatchArgs shadow, .traceShadow depth shadow, .shadeShadow depth shadow]
    else []

/-- The steps of a frame. -/
def plan (c : Counters) (clearAccumulation : Bool) : List Step :=
  .clearCounters :: (if clearAccumulation then [.clearAccumulation] else []) ++
    .generateRays :: c.depths.flatMap (depthSteps c.maxDepth) ++ [.resolveImage]

end Candela.Frame
