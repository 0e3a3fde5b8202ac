import Candela.Binary.Format
import Candela.Error
import Candela.Geometry.Vector

/-!
# Frame images

The image of a frame is what its pixels have accumulated, over the number of frames.
-/

namespace Candela.Frame

/-- An image, row by row from the top. -/
structure Image where
  width : Nat
  height : Nat
  pixels : List (Vec4 Float32)

namespace Image

/-- The image of accumulated colors over some frames; its pixels are opaque. -/
def ofAccumulation (width height : Nat) (accumulation : List (Vec4 Float32)) (samples : Nat) :
    Except Error Image :=
  let count := width * height
  if accumulation.length < count then
    .error (.other ("accumulation holds " ++ toString accumulation.length ++ " pixels, " ++
      toString width ++ "x" ++ toString height ++ " needs " ++ toString count))
  else
    let scale := 1 / Float32.ofNat (max samples 1)
    .ok ⟨width, height, (accumulation.take count).map fun c => (c.xyz.scale scale).extend 1⟩

/-- The mean of a channel, added up in double precision. -/
def channelMean (image : Image) (channel : Vec4 Float32 → Float32) : Float32 :=
  let sum := image.pixels.foldl (fun s p => s + (channel p).toFloat) 0
  Binary.singleOfDouble (sum / Float.ofNat (max image.pixels.length 1))

/-- The mean color. -/
def mean (image : Image) : Vec3 Float32 :=
  ⟨image.channelMean (·.x), image.channelMean (·.y), image.channelMean (·.z)⟩

end Image

end Candela.Frame
