import Candela.Geometry.Vector
import Candela.Json.Record
import Candela.Single

/-!
# Parameters of node types

The options that a node of some type has besides its inputs. Each record has a default for every
field and is read and written through the list of its fields.
-/

namespace Candela.Graph.Parameters

/-- Parameters of an image texture. -/
structure TexImage where
  filepath : String := ""
  interpolation : String := "Linear"
  projection : String := "FLAT"
  extension : String := "REPEAT"
  source : String := "FILE"
  colorspace : String := "sRGB"
  alpha : String := "STRAIGHT"
  deriving DecidableEq

/-- Its fields, by their names in a document. -/
def TexImage.fields : List (Json.Field TexImage) :=
  [ .text "filepath" (·.filepath) fun v p => { p with filepath := v },
    .text "interpolation" (·.interpolation) fun v p => { p with interpolation := v },
    .text "projection" (·.projection) fun v p => { p with projection := v },
    .text "extension" (·.extension) fun v p => { p with extension := v },
    .text "source" (·.source) fun v p => { p with source := v },
    .text "colorspace" (·.colorspace) fun v p => { p with colorspace := v },
    .text ⟨"alpha", ["alpha_mode"]⟩ (·.alpha) fun v p => { p with alpha := v } ]

/-- Parameters of an environment texture. -/
structure TexEnvironment where
  filepath : String := ""
  interpolation : String := "Linear"
  projection : String := "EQUIRECTANGULAR"
  colorspace : String := "Linear"
  alpha : String := "STRAIGHT"
  deriving DecidableEq

/-- Its fields, by their names in a document. -/
def TexEnvironment.fields : List (Json.Field TexEnvironment) :=
  [ .text "filepath" (·.filepath) fun v p => { p with filepath := v },
    .text "interpolation" (·.interpolation) fun v p => { p with interpolation := v },
    .text "projection" (·.projection) fun v p => { p with projection := v },
    .text "colorspace" (·.colorspace) fun v p => { p with colorspace := v },
    .text ⟨"alpha", ["alpha_mode"]⟩ (·.alpha) fun v p => { p with alpha := v } ]

/-- Parameters of a procedural sky. -/
structure TexSky where
  skyType : String := "NISHITA"
  sunDirection : Vec3 Float32 := ⟨0, 0, 1⟩
  sunDisc : Bool := true
  sunSize : Float32 := 0.009512
  sunIntensity : Float32 := 1
  sunElevation : Float32 := Single.radians 15
  sunRotation : Float32 := 0
  altitude : Float32 := 0
  airDensity : Float32 := 1
  dustDensity : Float32 := 1
  ozoneDensity : Float32 := 1
  turbidity : Float32 := 2.2
  groundAlbedo : Float32 := 0.3
  deriving DecidableEq

/-- Its fields, by their names in a document. -/
def TexSky.fields : List (Json.Field TexSky) :=
  [ .text "sky_type" (·.skyType) fun v p => { p with skyType := v },
    .of "sun_direction" Json.toVec3? (fun v => .ofSingles v.toList)
      (·.sunDirection) fun v p => { p with sunDirection := v },
    .flag "sun_disc" (·.sunDisc) fun v p => { p with sunDisc := v },
    .single "sun_size" (·.sunSize) fun v p => { p with sunSize := v },
    .single "sun_intensity" (·.sunIntensity) fun v p => { p with sunIntensity := v },
    .single "sun_elevation" (·.sunElevation) fun v p => { p with sunElevation := v },
    .single "sun_rotation" (·.sunRotation) fun v p => { p with sunRotation := v },
    .single "altitude" (·.altitude) fun v p => { p with altitude := v },
    .single "air_density" (·.airDensity) fun v p => { p with airDensity := v },
    .single "dust_density" (·.dustDensity) fun v p => { p with dustDensity := v },
    .single "ozone_density" (·.ozoneDensity) fun v p => { p with ozoneDensity := v },
    .single "turbidity" (·.turbidity) fun v p => { p with turbidity := v },
    .single "ground_albedo" (·.groundAlbedo) fun v p => { p with groundAlbedo := v } ]

/-- Parameters of a noise texture. -/
structure TexNoise where
  noiseDimensions : String := "3D"
  deriving DecidableEq

/-- Its fields, by their names in a document. -/
def TexNoise.fields : List (Json.Field TexNoise) :=
  [ .text "noise_dimensions" (·.noiseDimensions) fun v p => { p with noiseDimensions := v } ]

/-- Parameters of a gradient texture. -/
structure TexGradient where
  gradientType : String := "LINEAR"
  deriving DecidableEq

/-- Its fields, by their names in a document. -/
def TexGradient.fields : List (Json.Field TexGradient) :=
  [ .text "gradient_type" (·.gradientType) fun v p => { p with gradientType := v } ]

/-- Parameters of a wave texture. -/
structure TexWave where
  waveType : String := "BANDS"
  bandsDirection : String := "X"
  ringsDirection : String := "X"
  waveProfile : String := "SIN"
  deriving DecidableEq

/-- Its fields, by their names in a document. -/
def TexWave.fields : List (Json.Field TexWave) :=
  [ .text "wave_type" (·.waveType) fun v p => { p with waveType := v },
    .text "bands_direction" (·.bandsDirection) fun v p => { p with bandsDirection := v },
    .text "rings_direction" (·.ringsDirection) fun v p => { p with ringsDirection := v },
    .text "wave_profile" (·.waveProfile) fun v p => { p with waveProfile := v } ]

/-- One stop of a color ramp. -/
structure RampElement where
  position : Float32
  color : Vec4 Float32
  deriving DecidableEq

/-- Both parts of a stop must be given. -/
def RampElement.ofJson? (j : Json) : Option RampElement := do
  let f ← j.fields? ["position", "color"]
  return ⟨← f.required "position" Json.toSingle?, ← f.required "color" Json.toVec4?⟩

/-- A stop as a document. -/
def RampElement.toJson (e : RampElement) : Json :=
  .object [("position", .ofSingle e.position), ("color", .ofSingles e.color.toList)]

/-- Parameters of a color ramp. -/
structure ColorRamp where
  colorMode : String := "RGB"
  interpolation : String := "LINEAR"
  hueInterpolation : String := "NEAR"
  elements : List RampElement := [⟨0, ⟨0, 0, 0, 1⟩⟩, ⟨1, ⟨1, 1, 1, 1⟩⟩]
  deriving DecidableEq

/-- Its fields, by their names in a document. -/
def ColorRamp.fields : List (Json.Field ColorRamp) :=
  [ .text "color_mode" (·.colorMode) fun v p => { p with colorMode := v },
    .text "interpolation" (·.interpolation) fun v p => { p with interpolation := v },
    .text "hue_interpolation" (·.hueInterpolation) fun v p => { p with hueInterpolation := v },
    .of "elements" (Json.toList? RampElement.ofJson?) (fun es => .array (es.map (·.toJson)))
      (·.elements) fun v p => { p with elements := v } ]

/-- Parameters of a color mix. -/
structure MixRgb where
  blendType : String := "MIX"
  useClamp : Bool := false
  deriving DecidableEq

/-- Its fields, by their names in a document. -/
def MixRgb.fields : List (Json.Field MixRgb) :=
  [ .text "blend_type" (·.blendType) fun v p => { p with blendType := v },
    .flag "use_clamp" (·.useClamp) fun v p => { p with useClamp := v } ]

/-- Parameters of a mix of any data. -/
structure Mix where
  dataType : String := "FLOAT"
  blendType : String := "MIX"
  clampFactor : Bool := true
  clampResult : Bool := false
  factorMode : String := "UNIFORM"
  deriving DecidableEq

/-- Its fields, by their names in a document. -/
def Mix.fields : List (Json.Field Mix) :=
  [ .text "data_type" (·.dataType) fun v p => { p with dataType := v },
    .text "blend_type" (·.blendType) fun v p => { p with blendType := v },
    .flag "clamp_factor" (·.clampFactor) fun v p => { p with clampFactor := v },
    .flag "clamp_result" (·.clampResult) fun v p => { p with clampResult := v },
    .text "factor_mode" (·.factorMode) fun v p => { p with factorMode := v } ]

/-- Parameters of the principled closure. -/
structure Principled where
  distribution : String := "GGX"
  subsurfaceMethod : String := "BURLEY"
  deriving DecidableEq

/-- Its fields, by their names in a document. -/
def Principled.fields : List (Json.Field Principled) :=
  [ .text "distribution" (·.distribution) fun v p => { p with distribution := v },
    .text "subsurface_method" (·.subsurfaceMethod) fun v p => { p with subsurfaceMethod := v } ]

/-- The microfacet distribution of a glossy closure. -/
structure Distribution where
  distribution : String := "GGX"
  deriving DecidableEq

/-- Its fields, by their names in a document. -/
def Distribution.fields : List (Json.Field Distribution) :=
  [ .text "distribution" (·.distribution) fun v p => { p with distribution := v } ]

/-- Parameters of a coordinate mapping. -/
structure Mapping where
  vectorType : String := "POINT"
  deriving DecidableEq

/-- Its fields, by their names in a document. -/
def Mapping.fields : List (Json.Field Mapping) :=
  [ .text ⟨"vector_type", ["type"]⟩ (·.vectorType) fun v p => { p with vectorType := v } ]

/-- Parameters of a range mapping. -/
structure MapRange where
  clamp : Bool := true
  dataType : String := "FLOAT"
  interpolationType : String := "LINEAR"
  deriving DecidableEq

/-- Its fields, by their names in a document. -/
def MapRange.fields : List (Json.Field MapRange) :=
  [ .flag "clamp" (·.clamp) fun v p => { p with clamp := v },
    .text "data_type" (·.dataType) fun v p => { p with dataType := v },
    .text "interpolation_type" (·.interpolationType) fun v p => { p with interpolationType := v } ]

/-- Parameters of a normal map. -/
structure NormalMap where
  space : String := "TANGENT"
  uvMap : String := ""
  deriving DecidableEq

/-- Its fields, by their names in a document. -/
def NormalMap.fields : List (Json.Field NormalMap) :=
  [ .text "space" (·.space) fun v p => { p with space := v },
    .text "uv_map" (·.uvMap) fun v p => { p with uvMap := v } ]

/-- The color model in which a color is taken apart or put together. -/
structure ColorMode where
  mode : String := "RGB"
  deriving DecidableEq

/-- Its fields, by their names in a document. -/
def ColorMode.fields : List (Json.Field ColorMode) :=
  [ .text "mode" (·.mode) fun v p => { p with mode := v } ]

/-- Parameters of a scalar operation. -/
structure Math where
  operation : String := "ADD"
  useClamp : Bool := false
  deriving DecidableEq

/-- Its fields, by their names in a document. -/
def Math.fields : List (Json.Field Math) :=
  [ .text "operation" (·.operation) fun v p => { p with operation := v },
    .flag "use_clamp" (·.useClamp) fun v p => { p with useClamp := v } ]

/-- Parameters of a vector operation. -/
structure VectorMath where
  operation : String := "ADD"
  deriving DecidableEq

/-- Its fields, by their names in a document. -/
def VectorMath.fields : List (Json.Field VectorMath) :=
  [ .text "operation" (·.operation) fun v p => { p with operation := v } ]

/-- Parameters of a constant number. -/
structure Value where
  value : Float32 := 0
  deriving DecidableEq

/-- Its fields, by their names in a document. -/
def Value.fields : List (Json.Field Value) :=
  [ .single "value" (·.value) fun v p => { p with value := v } ]

/-- Parameters of a constant color. -/
structure Rgb where
  value : Vec4 Float32 := ⟨0.5, 0.5, 0.5, 1⟩
  deriving DecidableEq

/-- Its fields, by their names in a document. -/
def Rgb.fields : List (Json.Field Rgb) :=
  [ .of "value" Json.toVec4? (fun v => .ofSingles v.toList)
      (·.value) fun v p => { p with value := v } ]

/-- Parameters of a coordinate layer. -/
structure UvMap where
  uvMap : String := ""
  fromInstancer : Bool := false
  deriving DecidableEq

/-- Its fields, by their names in a document. -/
def UvMap.fields : List (Json.Field UvMap) :=
  [ .text "uv_map" (·.uvMap) fun v p => { p with uvMap := v },
    .flag "from_instancer" (·.fromInstancer) fun v p => { p with fromInstancer := v } ]

end Candela.Graph.Parameters
