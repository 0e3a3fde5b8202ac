import Candela.Frame.Sizes

/-!
# Frame states

Frames are accumulated for as long as their sizes stay. A state is what the buffers are made for,
and how many frames they have taken up.
-/

namespace Candela.Frame

/-- What the buffers are made for. -/
structure Target where
  sizes : Sizes
  /-- Whether the counters are read back. -/
  statistics : Bool
  deriving DecidableEq

/-- The target that is asked for. -/
def Target.ofRequest (width height maxDepth : Nat) (statistics : Bool) : Target :=
  ⟨.ofRequest width height maxDepth, statistics⟩

/-- The most frames that are counted. -/
def maxFrames : Nat := wordValues - 1

/-- A target and a number of frames. -/
structure State where
  target : Target
  frameIndex : Nat
  deriving DecidableEq

namespace State

/-- No frames yet. -/
def ofTarget (t : Target) : State := ⟨t, 0⟩

/-- Some more frames. -/
def advanceBy (s : State) (frames : Nat) : State :=
  { s with frameIndex := min (s.frameIndex + frames) maxFrames }

/-- One more frame. -/
def advance (s : State) : State := s.advanceBy 1

/-- Frames are added up, whether they come together or apart. -/
theorem advanceBy_advanceBy (s : State) (m n : Nat) :
    (s.advanceBy m).advanceBy n = s.advanceBy (m + n) := by
  simp only [advanceBy, State.mk.injEq, true_and]
  omega

/-- The frames are thrown away. -/
def reset (s : State) : State := { s with frameIndex := 0 }

/-- Whether a target needs other buffers. -/
def differs (s : State) (t : Target) : Bool := s.target ≠ t

/-- Whether a target needs other buffers, and the state with that target: frames are kept if not. -/
def retarget (s : State) (t : Target) : Bool × State :=
  if s.differs t then (true, .ofTarget t) else (false, s)

end State

end Candela.Frame
