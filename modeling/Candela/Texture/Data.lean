import Candela.Binary.Format
import Candela.Capacity
import Candela.Geometry.Vector

/-!
# Textures

A texture in the form in which shaders read it: four half-precision channels a texel. Texels are
numbered row by row and given by a function of their numbers, so a texture that is computed, such as
a sky, is an ordinary texture of which only those texels are computed that are looked at.
-/

namespace Candela.Texture

/-- The channels that an image had. -/
inductive PixelFormat where
  | rgba
  | r
  deriving DecidableEq

/-- The number that shader text uses for a format. -/
def PixelFormat.code : PixelFormat → Nat
  | rgba => 0
  | r => 1

/-- A texture. -/
structure Data where
  /-- Texels in a row. -/
  width : Nat
  /-- Rows. -/
  height : Nat
  /-- The channels that the image had. -/
  format : PixelFormat
  /-- The half-precision patterns of a texel. -/
  pattern : Nat → Vec4 UInt16

namespace Data

/-- A texture with every texel rounded to half precision. -/
def ofTexels (width height : Nat) (format : PixelFormat) (texel : Nat → Vec4 Float32) : Data :=
  ⟨width, height, format, fun i => (texel i).map Binary.halfOfSingle⟩

/-- How many channels all texels have together, which a word has to hold. -/
def channelCount (width height : Nat) : Except Error Nat := inWord (width * height * 4)

/-- A texture from the channels of its texels, which must be as many as it has. -/
def ofChannels (width height : Nat) (format : PixelFormat) (channels : Array Float32) :
    Except Error Data := do
  let count ← channelCount width height
  if channels.size ≠ count then throw .outOfBounds
  return ofTexels width height format fun i =>
    let channel (k : Nat) := channels.getD (i * 4 + k) 0
    ⟨channel 0, channel 1, channel 2, channel 3⟩

/-- A texture whose texels are all alike. -/
def uniform (width height : Nat) (format : PixelFormat) (rgba : Vec4 Float32) :
    Except Error Data := do
  let _ ← channelCount width height
  return ofTexels width height format fun _ => rgba

/-- A texture of one texel. -/
def solid (rgba : Vec4 Float32) : Data := ofTexels 1 1 .rgba fun _ => rgba

/-- What stands in for a texture that cannot be loaded. -/
def placeholder : Data := solid ⟨1, 0, 1, 1⟩

/-- How many texels there are. -/
def size (t : Data) : Nat := t.width * t.height

/-- A texel as numbers. -/
def texel (t : Data) (i : Nat) : Vec4 Float32 := (t.pattern i).map Binary.singleOfHalf

/-- The texel in some column and row, if there is one. Columns beyond the last one go on in the rows
that follow. -/
def texelAt? (t : Data) (x y : Nat) : Option (Vec4 Float32) :=
  let i := y * t.width + x
  if i < t.size then some (t.texel i) else none

/-- The texels, row by row. -/
def texels (t : Data) : List (Vec4 Float32) := (List.range t.size).map t.texel

/-- A word in little-endian order. -/
def wordBytes (w : UInt16) : List UInt8 := [w.toUInt8, (w >>> 8).toUInt8]

/-- The texels in memory. -/
def bytes (t : Data) : List UInt8 :=
  (List.range t.size).flatMap fun i => (t.pattern i).toList.flatMap wordBytes

end Data

end Candela.Texture
