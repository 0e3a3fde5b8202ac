import Candela.Graph.Kernel
import Candela.Power
import Candela.Shader.Catalogue
import Candela.Shader.Expression
import Candela.Shader.Invocation
import Candela.Texture.Registry

/-!
# Rules of node types

Which kernel implements a node type, and how the parameters of a node become arguments and
assignments of its invocation. A rule only looks at the node's type and parameters and at the
textures that have slots; links and literals are put in later.
-/

namespace Candela.Graph.Kernel

/-- The kernel that implements a node type, if there is one. -/
def implementation? : Kernel → Option String
  | outputMaterial => some "OutputMaterial"
  | outputWorld => some "OutputWorld"
  | outputLight => some "OutputLight"
  | bsdfPrincipled _ => some "BsdfPrincipled"
  | bsdfDiffuse => some "BsdfDiffuse"
  | bsdfGlossy _ => some "BsdfGlossy"
  | bsdfGlass _ => some "BsdfGlass"
  | bsdfTransparent => some "BsdfTransparent"
  | bsdfTranslucent => some "BsdfTranslucent"
  | bsdfRefraction _ => some "BsdfRefraction"
  | bsdfAnisotropic _ => some "BsdfAnisotropic"
  | bsdfVelvet => some "BsdfVelvet"
  | bsdfHair => some "BsdfHair"
  | emission => some "Emission"
  | background => some "Background"
  | addShader => some "AddShader"
  | mixShader => some "MixShader"
  | volumeScatter => some "VolumeScatter"
  | texImage _ => some "TexImage"
  | texEnvironment _ => some "TexEnvironment"
  | texSky p =>
    if p.skyType = "NISHITA" ∨ p.skyType = "HOSEK_WILKIE" then some "TexNishita" else none
  | texChecker => some "TexChecker"
  | texNoise _ => some "TexNoise"
  | texGradient _ => some "TexGradient"
  | texWave _ => some "TexWave"
  | texIes => some "TexIes"
  | texMagic => some "TexMagic"
  | texVoronoi => some "TexVoronoi"
  | texMusgrave => some "TexMusgrave"
  | texBrick => some "TexBrick"
  | colorRamp _ => some "ColorRamp"
  | mixRgb _ => some "MixRgb"
  | mix _ => some "Mix"
  | invert => some "Invert"
  | rgbToBw => some "RgbToBw"
  | separateColor _ => some "SeparateColor"
  | combineColor _ => some "CombineColor"
  | hueSaturation => some "HueSaturation"
  | brightnessContrast => some "BrightnessContrast"
  | gamma => some "Gamma"
  | colorCurves => some "ColorCurves"
  | blackbody => some "Blackbody"
  | mapping _ => some "Mapping"
  | normalMap _ => some "NormalMap"
  | bump => some "Bump"
  | displacement => some "Displacement"
  | separateXyz => some "SeparateXyz"
  | combineXyz => some "CombineXyz"
  | vectorMath _ => some "VectorMath"
  | mapRange _ => some "MapRange"
  | math _ => some "Math"
  | value _ => some "Value"
  | rgb _ => some "Rgb"
  | textureCoordinate => some "TextureCoordinate"
  | newGeometry => some "NewGeometry"
  | lightPath => some "LightPath"
  | fresnel => some "Fresnel"
  | layerWeight => some "LayerWeight"
  | uvMap _ => some "UvMap"
  | namedAttribute => some "Attribute"
  | objectInfo => some "ObjectInfo"
  | particleInfo => some "ParticleInfo"
  | lightFalloff => some "LightFalloff"
  | vertexColor => some "VertexColor"
  | normal => some "NormalProduct"
  | ambientOcclusion => some "AmbientOcclusion"
  | unknown _ => none

/-- The signature of the kernel that implements a node type. -/
def signature? (k : Kernel) : Option Shader.Signature := k.implementation? >>= Shader.signature?

end Candela.Graph.Kernel

namespace Candela.Shader

open Candela.Graph (Kernel)
open Candela.Graph.Parameters (RampElement)

/-- How a node type is compiled. -/
inductive Capability where
  /-- Its compute function is part of the static library. -/
  | native
  /-- Its compute function is generated. -/
  | stub
  /-- A graph with such a node is refused. -/
  | unsupported
  deriving DecidableEq

/-- How a node type is compiled. -/
def capability (k : Kernel) : Capability :=
  match k.signature? with
  | none => .unsupported
  | some s => if s.isStub then .stub else .native

/-- The fields of a kernel that hold a vector of the point that is shaded unless they are linked. -/
def contextDefaults (kernel : String) : List (String × Context) :=
  if kernel = "TexImage" then [("vector", .uv)]
  else if kernel ∈ ["TexChecker", "TexNoise", "TexEnvironment", "TexNishita", "TexGradient",
      "TexWave"] then [("vector", .generated)]
  else if kernel ∈ ["Fresnel", "LayerWeight", "BsdfGlass", "BsdfGlossy", "BsdfDiffuse",
      "BsdfPrincipled", "BsdfTranslucent", "BsdfRefraction", "BsdfAnisotropic", "BsdfVelvet",
      "Bump", "AmbientOcclusion", "Displacement"] then [("normal", .normal)]
  else []

/-! ## Textures -/

/-- The sky of a node: one described by turbidity is dimmer by a fixed scale. -/
def skyOf (p : Graph.Parameters.TexSky) : Sky.Model × Float32 :=
  if p.skyType = "HOSEK_WILKIE" then (.ofHosek p, 0.08) else (.ofNishita p, 1)

/-- The texture that a node samples. -/
def textureOf? : Kernel → Option Texture.Source
  | .texImage p => some (.file p.filepath)
  | .texEnvironment p => some (.file p.filepath)
  | .texSky p => some (.sky (skyOf p).1)
  | _ => none

/-- The option value of a color space: an image without one is taken as sRGB, any other is
linear. -/
def colorSpaceValue (name : String) : String :=
  if name = "sRGB" ∨ name = "" then "SRGB" else "LINEAR"

/-! ## Color ramps -/

/-- How many stops a color ramp has room for. -/
def maxRampElements : Nat := 32

/-- The place of a number in the total order of all bit patterns: negative ones come first and in
reverse, and minus zero comes before zero. -/
def orderKey (x : Float32) : Int :=
  let bits := x.toBits.toNat
  if bits < 2 ^ 31 then bits else (2 ^ 31 - 1 : Nat) - bits

/-- The stops of a ramp that are kept: sorted by position, stops of one position in their order, and
the last ones dropped where there are too many. -/
def rampStops (elements : List RampElement) : List RampElement :=
  (elements.mergeSort fun a b => orderKey a.position ≤ orderKey b.position).take maxRampElements

/-- The stored stops: those that are kept, and unused ones up to the full number. -/
def paddedStops (stops : List RampElement) : List (Option RampElement) :=
  stops.map some ++ List.replicate (maxRampElements - stops.length) none

/-! ## Invocations -/

/-- The invocation of a node of some type, for a kernel of the given signature and a texture in the
given slot. -/
def invocationOf (k : Kernel) (signature : Signature) (slot : Nat) : Invocation Expression :=
  let i : Invocation Expression := .ofSignature signature
  match k with
  | .texImage p =>
    i.comment p.filepath
      |>.argument (.slot slot)
      |>.choose "INTERPOLATION" p.interpolation
      |>.choose "PROJECTION" p.projection
      |>.choose "EXTENSION" p.extension
      |>.choose "ALPHA" p.alpha
      |>.choose "COLOR_SPACE" (colorSpaceValue p.colorspace)
      |>.argument (.pixelFormat slot)
  | .texEnvironment p =>
    i.comment p.filepath
      |>.argument (.slot slot)
      |>.choose "INTERPOLATION" p.interpolation
      |>.choose "PROJECTION" p.projection
      |>.choose "COLOR_SPACE" (colorSpaceValue p.colorspace)
      |>.argument (.pixelFormat slot)
  | .texSky p =>
    let (model, scale) := skyOf p
    i.assign "data" (.numbers model.sunData)
      |>.assign "scale" (.number scale)
      |>.comment ("sky: " ++ p.skyType)
      |>.argument (.slot slot)
  | .colorRamp p =>
    let stops := rampStops p.elements
    i.assign "elements" (.ramp (paddedStops stops))
      |>.argument (.int stops.length)
      |>.choose "INTERPOLATION" p.interpolation
  | .mixRgb p => i.choose "BLEND_TYPE" p.blendType |>.argument (.bool p.useClamp)
  | .mix p =>
    i.choose "FACTOR_MODE" p.factorMode
      |>.choose "BLEND_TYPE" p.blendType
      |>.argument (.bool p.clampFactor)
      |>.argument (.bool p.clampResult)
  | .bsdfPrincipled p =>
    i.choose "DISTRIBUTION" p.distribution |>.choose "SUBSURFACE_METHOD" p.subsurfaceMethod
  | .bsdfGlossy p | .bsdfGlass p => i.choose "DISTRIBUTION" p.distribution
  | .mapping p => i.choose "TYPE" p.vectorType
  | .normalMap p => i.choose "SPACE" p.space
  | .separateColor p | .combineColor p => i.choose "MODE" p.mode
  | .math p => i.choose "OPERATION" p.operation |>.argument (.bool p.useClamp)
  | .vectorMath p => i.choose "OPERATION" p.operation
  | .mapRange p =>
    i.argument (.bool p.clamp)
      |>.choose "DATA_TYPE" p.dataType
      |>.choose "INTERPOLATION_TYPE" p.interpolationType
  | .texNoise p => i.choose "DIMENSION" p.noiseDimensions
  | .texGradient p => i.choose "TYPE" p.gradientType
  | .texWave p =>
    let direction :=
      if p.waveType.map Char.toUpper = "RINGS" then p.ringsDirection else p.bandsDirection
    i.choose "TYPE" p.waveType
      |>.choose "DIRECTION" direction
      |>.choose "PROFILE" p.waveProfile
  | .value p => i.assign "value" (.constant (.splat p.value))
  | .rgb p => i.assign "color" (.constant p.value)
  | _ => i

/-- The tag by which an unsupported node is reported. -/
def unsupportedTag : Kernel → String
  | .texSky p => "TEX_SKY (" ++ p.skyType ++ ")"
  | k => k.tag

/-- The invocation of a node, its texture given a slot. -/
def invoke (k : Kernel) (registry : Texture.Registry) :
    Except Error (Invocation Expression × Texture.Registry) :=
  match k.signature? with
  | none => .error (.unsupportedKernel (unsupportedTag k))
  | some signature =>
    match textureOf? k with
    | none => .ok (invocationOf k signature 0, registry)
    | some source =>
      match registry.register source with
      | .error e => .error e
      | .ok (slot, registry) => .ok (invocationOf k signature slot, registry)

end Candela.Shader
