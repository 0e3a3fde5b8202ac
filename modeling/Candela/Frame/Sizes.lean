import Candela.Frame.Plan

/-!
# Frame sizes

What a frame of some resolution needs. Width, height and depth are at least one. The device counts
rays and counters in words, so a frame that has more pixels or counters than that is refused
(`Sizes.footprint`); the bytes of a frame that is not refused are computed exactly.
-/

namespace Candela.Frame

/-- Bytes of a ray. -/
def rayBytes : Nat := 64

/-- Bytes of a shadow ray. -/
def shadowRayBytes : Nat := 48

/-- Bytes of a hit. -/
def hitBytes : Nat := 24

/-- Bytes of a pixel's accumulated color. -/
def colorBytes : Nat := 16

/-- Bytes of a pixel of the image. -/
def pixelBytes : Nat := 4

/-- A resolution and a number of bounces. -/
structure Sizes where
  width : Nat
  height : Nat
  maxDepth : Nat
  deriving DecidableEq

/-- The sizes asked for, none of them zero. -/
def Sizes.ofRequest (width height maxDepth : Nat) : Sizes :=
  ⟨max width 1, max height 1, max maxDepth 1⟩

/-- How many pixels there are. Their number is a word. -/
def Sizes.pixels (s : Sizes) : Except Error Nat := inWord (s.width * s.height)

/-- What the buffers of a frame are made for. -/
structure Footprint where
  /-- How many pixels there are. -/
  pixels : Nat
  counters : Counters
  deriving DecidableEq

/-- What a frame of some sizes needs. -/
def Sizes.footprint (s : Sizes) : Except Error Footprint := do
  return ⟨← s.pixels, ← Counters.ofDepth s.maxDepth⟩

namespace Footprint

/-- How many rays a half of the ray buffer has room for. -/
def rayCapacity (f : Footprint) : Nat := f.pixels

/-- Bytes of both halves of the ray buffer. -/
def rays (f : Footprint) : Nat := 2 * f.rayCapacity * rayBytes

/-- Bytes of the shadow rays. -/
def shadowRays (f : Footprint) : Nat := f.rayCapacity * shadowRayBytes

/-- Bytes of the hits. -/
def hits (f : Footprint) : Nat := f.rayCapacity * hitBytes

/-- Bytes of the grids, two at every depth. -/
def grids (f : Footprint) : Nat := 2 * f.counters.maxDepth * Grid.bytes

/-- Bytes of the accumulated colors. -/
def accumulation (f : Footprint) : Nat := f.pixels * colorBytes

/-- Bytes of everything. -/
def total (f : Footprint) : Nat :=
  f.rays + f.shadowRays + f.hits + f.counters.bytes + f.grids + f.accumulation +
    f.pixels * pixelBytes

end Footprint

end Candela.Frame
