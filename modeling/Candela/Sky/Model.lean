import Candela.Decimal.Layout
import Candela.Geometry.Vector
import Candela.Graph.Parameters
import Candela.Single
import Candela.Texture.Data

/-!
# The sky

A model of a clear sky with single scattering: sunlight is attenuated on its way through air, dust
and ozone, scattered once, and attenuated again on its way to the eye. A `Model` holds the sun's
position and the densities; `Model.sunData` is what a shader needs to draw the disc of the sun, and
`Model.image` is the rest of the sky as a texture.
-/

namespace Candela.Sky

/-- The position and look of the sun, and what the atmosphere is made of. -/
structure Model where
  sunElevation : Float32
  sunRotation : Float32
  sunDisc : Bool
  sunSize : Float32
  sunIntensity : Float32
  altitude : Float32
  airDensity : Float32
  dustDensity : Float32
  ozoneDensity : Float32
  deriving DecidableEq

/-- Half a turn halved. -/
def quarterTurn : Float32 := 1.57079632679489661923

namespace Model

/-- The sky that a node describes. -/
def ofNishita (p : Graph.Parameters.TexSky) : Model where
  sunElevation := p.sunElevation
  sunRotation := p.sunRotation
  sunDisc := p.sunDisc
  sunSize := p.sunSize
  sunIntensity := p.sunIntensity
  altitude := p.altitude
  airDensity := p.airDensity
  dustDensity := p.dustDensity
  ozoneDensity := p.ozoneDensity

/-- A sky described by the direction of its sun and its turbidity, approximated by this model. -/
def ofHosek (p : Graph.Parameters.TexSky) : Model :=
  let dir := p.sunDirection.normalizeOr ⟨0, 0, 1⟩
  { sunElevation := (Single.clamp dir.z (-1) 1).asin
    sunRotation := dir.y.atan2 dir.x - quarterTurn
    sunDisc := false
    sunSize := p.sunSize
    sunIntensity := 1
    altitude := 0
    airDensity := 1
    dustDensity := Single.max (p.turbidity / 2.2) 0
    ozoneDensity := 1 }

/-- The numbers of a model, which tell any two apart. -/
def describe (m : Model) : String :=
  let layout := { Decimal.report with signedZero := true }
  ", ".intercalate
    ([m.sunElevation, m.sunRotation, if m.sunDisc then 1 else 0, m.sunSize, m.sunIntensity,
      m.altitude, m.airDensity, m.dustDensity, m.ozoneDensity].map layout.single)

/-! ## The atmosphere -/

/-- The radius of the earth in metres. -/
def earthRadius : Float32 := 6360000

/-- The radius of the atmosphere in metres. -/
def atmosphereRadius : Float32 := 6420000

/-- How much air scatters light of each color. -/
def rayleighCoefficient : Vec3 Float32 := ⟨5.802e-6, 13.558e-6, 33.1e-6⟩

/-- How much dust scatters light. -/
def mieCoefficient : Float32 := 3.996e-6

/-- How much ozone absorbs light of each color. -/
def ozoneCoefficient : Vec3 Float32 := ⟨0.650e-6, 1.881e-6, 0.085e-6⟩

/-- How much dust prefers to scatter forwards. -/
def mieAsymmetry : Float32 := 0.76

/-- The radiance of the sun above the atmosphere. -/
def sunRadiance : Float32 := 20

/-- Amounts of air, dust and ozone. -/
structure Depth where
  air : Float32
  dust : Float32
  ozone : Float32

/-- Amounts together. -/
def Depth.add (a b : Depth) : Depth := ⟨a.air + b.air, a.dust + b.dust, a.ozone + b.ozone⟩

/-- Amounts along a step of some length. -/
def Depth.along (d : Depth) (step : Float32) : Depth :=
  ⟨d.air * step, d.dust * step, d.ozone * step⟩

/-- No amounts. -/
def Depth.zero : Depth := ⟨0, 0, 0⟩

/-- The densities at a point; ozone peaks at 25 kilometres. -/
def densities (m : Model) (point : Vec3 Float32) : Depth :=
  let height := Single.max (point.length - earthRadius) 0
  { air := (-height / 8000).exp * m.airDensity
    dust := (-height / 1200).exp * m.dustDensity
    ozone := Single.max (1 - (height - 25000).abs / 15000) 0 * m.ozoneDensity }

/-- What part of light of each color passes through some amounts. -/
def extinction (d : Depth) : Vec3 Float32 :=
  let tau := rayleighCoefficient.scale d.air + Vec3.splat (mieCoefficient * 1.11 * d.dust) +
    ozoneCoefficient.scale d.ozone
  tau.map fun t => (-t).exp

/-- The distance from a point along a direction to the top of the atmosphere. -/
def atmosphereExit (origin dir : Vec3 Float32) : Float32 :=
  let b := origin.dot dir
  let c := origin.lengthSquared - atmosphereRadius * atmosphereRadius
  let disc := Single.max (b * b - c) 0
  Single.max (-b + disc.sqrt) 0

/-- Whether a ray meets the ground. -/
def hitsGround (origin dir : Vec3 Float32) : Bool :=
  let b := origin.dot dir
  let c := origin.lengthSquared - earthRadius * earthRadius
  b < 0 && 0 < b * b - c

/-- The middle of a step along a ray. -/
def stepPoint (origin dir : Vec3 Float32) (step : Float32) (i : Nat) : Vec3 Float32 :=
  origin + (dir.scale (Float32.ofNat i + 0.5)).scale step

/-- The amounts from a point to the top of the atmosphere, in eight steps. -/
def opticalDepth (m : Model) (origin dir : Vec3 Float32) : Depth :=
  let step := atmosphereExit origin dir / 8
  (List.range 8).foldl
    (fun depth i => depth.add ((m.densities (stepPoint origin dir step i)).along step)) .zero

/-- Where the eye is. -/
def eye (m : Model) : Vec3 Float32 := ⟨0, 0, earthRadius + Single.max m.altitude 1⟩

/-- The direction of an elevation and an azimuth. -/
def direction (elevation azimuth : Float32) : Vec3 Float32 :=
  ⟨elevation.cos * azimuth.cos, elevation.cos * azimuth.sin, elevation.sin⟩

/-- The direction of the sun. -/
def sunDirection (m : Model) : Vec3 Float32 :=
  direction m.sunElevation (m.sunRotation + quarterTurn)

/-- The radiance of the sun seen in a direction. -/
def sunRadianceAlong (m : Model) (dir : Vec3 Float32) : Vec3 Float32 :=
  if hitsGround m.eye dir then .zero
  else (extinction (m.opticalDepth m.eye dir)).map (sunRadiance * ·)

/-- The colors of the lower and upper edge of the sun, its position, size and intensity. -/
def sunData (m : Model) : List Float32 :=
  let half := m.sunSize / 2
  let rotation := m.sunRotation + quarterTurn
  let bottom := m.sunRadianceAlong (direction (m.sunElevation - half) rotation)
  let top := m.sunRadianceAlong (direction (m.sunElevation + half) rotation)
  bottom.toList ++ top.toList ++
    [m.sunElevation, m.sunRotation, if m.sunDisc then m.sunSize else 0, m.sunIntensity]

/-- What a ray has gathered: the amounts it passed, and the light scattered by air and by dust. -/
structure Gathered where
  passed : Depth
  rayleigh : Vec3 Float32
  mie : Vec3 Float32

/-- One step of a ray: the light that is scattered there reaches the eye unless the sun is below the
horizon of the point. -/
def gather (m : Model) (origin dir sun : Vec3 Float32) (step : Float32) (g : Gathered) (i : Nat) :
    Gathered :=
  let p := stepPoint origin dir step i
  let d := m.densities p
  let passed := g.passed.add (d.along step)
  if hitsGround p sun then { g with passed := passed }
  else
    let attenuation := extinction (passed.add (m.opticalDepth p sun))
    { passed := passed
      rayleigh := g.rayleigh + (attenuation.scale d.air).scale step
      mie := g.mie + (attenuation.scale d.dust).scale step }

/-- The light that is scattered once along a ray, in sixteen steps. -/
def scattered (m : Model) (origin dir sun : Vec3 Float32) : Vec3 Float32 :=
  let step := atmosphereExit origin dir / 16
  let mu := dir.dot sun
  let phaseRayleigh := 3 / (16 * Single.pi) * (1 + mu * mu)
  let g2 := mieAsymmetry * mieAsymmetry
  let phaseMie := 3 / (8 * Single.pi) * ((1 - g2) * (1 + mu * mu)) /
    ((2 + g2) * (1 + g2 - 2 * mieAsymmetry * mu).pow 1.5)
  let g := (List.range 16).foldl (m.gather origin dir sun step) ⟨.zero, .zero, .zero⟩
  ((g.rayleigh * rayleighCoefficient).scale phaseRayleigh +
    (g.mie.scale mieCoefficient).scale phaseMie).map (sunRadiance * ·)

/-! ## The dome as a texture

Columns are azimuths, rows are square roots of elevations, so that there are more rows near the
horizon.
-/

/-- The columns and rows of a sky texture. -/
def resolution : Nat := 512

/-- The middle of a texel, from zero to one. -/
def texelCentre (i : Nat) : Float32 := (Float32.ofNat i + 0.5) / Float32.ofNat resolution

/-- The direction that a texel shows. -/
def texelDirection (m : Model) (x y : Nat) : Vec3 Float32 :=
  let v := texelCentre y
  let elevation := v * v * quarterTurn
  let azimuth := texelCentre x * (2 * Single.pi) - Single.pi - m.sunRotation
  ⟨elevation.cos * azimuth.sin, elevation.cos * azimuth.cos, elevation.sin⟩

/-- The sky without the disc of the sun. -/
def image (m : Model) : Texture.Data :=
  Texture.Data.ofTexels resolution resolution .rgba fun i =>
    let direction := m.texelDirection (i % resolution) (i / resolution)
    (m.scattered m.eye direction m.sunDirection).extend 1

end Model

end Candela.Sky
