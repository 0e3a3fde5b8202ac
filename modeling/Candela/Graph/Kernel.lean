import Candela.Graph.Parameters

/-!
# Node types

A `Kernel` is the type of a node together with its parameters. `Kernel.ofTag?` reads it from the
type's tag and a document with parameters; a tag that is not known is kept as `unknown`.
-/

namespace Candela.Graph

/-- The type of a node, with its parameters. -/
inductive Kernel where
  | outputMaterial
  | outputWorld
  | outputLight
  | bsdfPrincipled (p : Parameters.Principled)
  | bsdfDiffuse
  | bsdfGlossy (p : Parameters.Distribution)
  | bsdfGlass (p : Parameters.Distribution)
  | bsdfTransparent
  | bsdfTranslucent
  | bsdfRefraction (p : Parameters.Distribution)
  | bsdfAnisotropic (p : Parameters.Distribution)
  | bsdfVelvet
  | bsdfHair
  | emission
  | background
  | addShader
  | mixShader
  | volumeScatter
  | texImage (p : Parameters.TexImage)
  | texEnvironment (p : Parameters.TexEnvironment)
  | texSky (p : Parameters.TexSky)
  | texChecker
  | texNoise (p : Parameters.TexNoise)
  | texGradient (p : Parameters.TexGradient)
  | texWave (p : Parameters.TexWave)
  | texIes
  | texMagic
  | texVoronoi
  | texMusgrave
  | texBrick
  | colorRamp (p : Parameters.ColorRamp)
  | mixRgb (p : Parameters.MixRgb)
  | mix (p : Parameters.Mix)
  | invert
  | rgbToBw
  | separateColor (p : Parameters.ColorMode)
  | combineColor (p : Parameters.ColorMode)
  | hueSaturation
  | brightnessContrast
  | gamma
  | colorCurves
  | blackbody
  | mapping (p : Parameters.Mapping)
  | normalMap (p : Parameters.NormalMap)
  | bump
  | displacement
  | separateXyz
  | combineXyz
  | vectorMath (p : Parameters.VectorMath)
  | mapRange (p : Parameters.MapRange)
  | math (p : Parameters.Math)
  | value (p : Parameters.Value)
  | rgb (p : Parameters.Rgb)
  | textureCoordinate
  | newGeometry
  | lightPath
  | fresnel
  | layerWeight
  | uvMap (p : Parameters.UvMap)
  | namedAttribute
  | objectInfo
  | particleInfo
  | lightFalloff
  | vertexColor
  | normal
  | ambientOcclusion
  /-- A type that this library does not know. -/
  | unknown (tag : String)
  deriving DecidableEq

namespace Kernel

/-- The tag of a node type. -/
def tag : Kernel → String
  | outputMaterial => "OUTPUT_MATERIAL"
  | outputWorld => "OUTPUT_WORLD"
  | outputLight => "OUTPUT_LIGHT"
  | bsdfPrincipled _ => "BSDF_PRINCIPLED"
  | bsdfDiffuse => "BSDF_DIFFUSE"
  | bsdfGlossy _ => "BSDF_GLOSSY"
  | bsdfGlass _ => "BSDF_GLASS"
  | bsdfTransparent => "BSDF_TRANSPARENT"
  | bsdfTranslucent => "BSDF_TRANSLUCENT"
  | bsdfRefraction _ => "BSDF_REFRACTION"
  | bsdfAnisotropic _ => "BSDF_ANISOTROPIC"
  | bsdfVelvet => "BSDF_VELVET"
  | bsdfHair => "BSDF_HAIR"
  | emission => "EMISSION"
  | background => "BACKGROUND"
  | addShader => "ADD_SHADER"
  | mixShader => "MIX_SHADER"
  | volumeScatter => "VOLUME_SCATTER"
  | texImage _ => "TEX_IMAGE"
  | texEnvironment _ => "TEX_ENVIRONMENT"
  | texSky _ => "TEX_SKY"
  | texChecker => "TEX_CHECKER"
  | texNoise _ => "TEX_NOISE"
  | texGradient _ => "TEX_GRADIENT"
  | texWave _ => "TEX_WAVE"
  | texIes => "TEX_IES"
  | texMagic => "TEX_MAGIC"
  | texVoronoi => "TEX_VORONOI"
  | texMusgrave => "TEX_MUSGRAVE"
  | texBrick => "TEX_BRICK"
  | colorRamp _ => "VALTORGB"
  | mixRgb _ => "MIX_RGB"
  | mix _ => "MIX"
  | invert => "INVERT"
  | rgbToBw => "RGBTOBW"
  | separateColor _ => "SEPARATE_COLOR"
  | combineColor _ => "COMBINE_COLOR"
  | hueSaturation => "HUE_SAT"
  | brightnessContrast => "BRIGHTCONTRAST"
  | gamma => "GAMMA"
  | colorCurves => "CURVE_RGB"
  | blackbody => "BLACKBODY"
  | mapping _ => "MAPPING"
  | normalMap _ => "NORMAL_MAP"
  | bump => "BUMP"
  | displacement => "DISPLACEMENT"
  | separateXyz => "SEPXYZ"
  | combineXyz => "COMBXYZ"
  | vectorMath _ => "VECT_MATH"
  | mapRange _ => "MAP_RANGE"
  | math _ => "MATH"
  | value _ => "VALUE"
  | rgb _ => "RGB"
  | textureCoordinate => "TEX_COORD"
  | newGeometry => "NEW_GEOMETRY"
  | lightPath => "LIGHT_PATH"
  | fresnel => "FRESNEL"
  | layerWeight => "LAYER_WEIGHT"
  | uvMap _ => "UVMAP"
  | namedAttribute => "ATTRIBUTE"
  | objectInfo => "OBJECT_INFO"
  | particleInfo => "PARTICLE_INFO"
  | lightFalloff => "LIGHT_FALLOFF"
  | vertexColor => "VERTEX_COLOR"
  | normal => "NORMAL"
  | ambientOcclusion => "AMBIENT_OCCLUSION"
  | unknown tag => tag

/-- The node types without parameters. -/
def plain : List Kernel :=
  [ outputMaterial,
    outputWorld,
    outputLight,
    bsdfDiffuse,
    bsdfTransparent,
    bsdfTranslucent,
    bsdfVelvet,
    bsdfHair,
    emission,
    background,
    addShader,
    mixShader,
    volumeScatter,
    texChecker,
    texIes,
    texMagic,
    texVoronoi,
    texMusgrave,
    texBrick,
    invert,
    rgbToBw,
    hueSaturation,
    brightnessContrast,
    gamma,
    colorCurves,
    blackbody,
    bump,
    displacement,
    separateXyz,
    combineXyz,
    textureCoordinate,
    newGeometry,
    lightPath,
    fresnel,
    layerWeight,
    namedAttribute,
    objectInfo,
    particleInfo,
    lightFalloff,
    vertexColor,
    normal,
    ambientOcclusion ]

/-- The parameters that a document gives: `null` means that none is given. -/
def parameters? {σ : Type} (fields : List (Json.Field σ)) (absent : σ) : Json → Option σ
  | .null => some absent
  | j => Json.readRecord fields absent j

/-- The node type of a tag, its parameters read from a document; nothing if they do not fit. A type
without parameters takes any document. -/
def ofTag? (tag : String) (parameters : Json) : Option Kernel :=
  match tag with
  | "BSDF_PRINCIPLED" => (parameters? Parameters.Principled.fields {} parameters).map bsdfPrincipled
  | "BSDF_GLOSSY" => (parameters? Parameters.Distribution.fields {} parameters).map bsdfGlossy
  | "BSDF_GLASS" => (parameters? Parameters.Distribution.fields {} parameters).map bsdfGlass
  | "BSDF_REFRACTION" =>
    (parameters? Parameters.Distribution.fields {} parameters).map bsdfRefraction
  | "BSDF_ANISOTROPIC" =>
    (parameters? Parameters.Distribution.fields {} parameters).map bsdfAnisotropic
  | "TEX_IMAGE" => (parameters? Parameters.TexImage.fields {} parameters).map texImage
  | "TEX_ENVIRONMENT" =>
    (parameters? Parameters.TexEnvironment.fields {} parameters).map texEnvironment
  | "TEX_SKY" => (parameters? Parameters.TexSky.fields {} parameters).map texSky
  | "TEX_NOISE" => (parameters? Parameters.TexNoise.fields {} parameters).map texNoise
  | "TEX_GRADIENT" => (parameters? Parameters.TexGradient.fields {} parameters).map texGradient
  | "TEX_WAVE" => (parameters? Parameters.TexWave.fields {} parameters).map texWave
  | "VALTORGB" => (parameters? Parameters.ColorRamp.fields {} parameters).map colorRamp
  | "MIX_RGB" => (parameters? Parameters.MixRgb.fields {} parameters).map mixRgb
  | "MIX" => (parameters? Parameters.Mix.fields {} parameters).map mix
  | "SEPARATE_COLOR" => (parameters? Parameters.ColorMode.fields {} parameters).map separateColor
  | "COMBINE_COLOR" => (parameters? Parameters.ColorMode.fields {} parameters).map combineColor
  | "MAPPING" => (parameters? Parameters.Mapping.fields {} parameters).map mapping
  | "NORMAL_MAP" => (parameters? Parameters.NormalMap.fields {} parameters).map normalMap
  | "VECT_MATH" => (parameters? Parameters.VectorMath.fields {} parameters).map vectorMath
  | "MAP_RANGE" => (parameters? Parameters.MapRange.fields {} parameters).map mapRange
  | "MATH" => (parameters? Parameters.Math.fields {} parameters).map math
  | "VALUE" => (parameters? Parameters.Value.fields {} parameters).map value
  | "RGB" => (parameters? Parameters.Rgb.fields {} parameters).map rgb
  | "UVMAP" => (parameters? Parameters.UvMap.fields {} parameters).map uvMap
  | _ => some ((plain.find? (·.tag == tag)).getD (unknown tag))

/-- The members that write the parameters of a node type, if it has any. -/
def parameters : Kernel → Option (List (String × Json))
  | bsdfPrincipled p => some (Json.writeRecord Parameters.Principled.fields p)
  | bsdfGlossy p => some (Json.writeRecord Parameters.Distribution.fields p)
  | bsdfGlass p => some (Json.writeRecord Parameters.Distribution.fields p)
  | bsdfRefraction p => some (Json.writeRecord Parameters.Distribution.fields p)
  | bsdfAnisotropic p => some (Json.writeRecord Parameters.Distribution.fields p)
  | texImage p => some (Json.writeRecord Parameters.TexImage.fields p)
  | texEnvironment p => some (Json.writeRecord Parameters.TexEnvironment.fields p)
  | texSky p => some (Json.writeRecord Parameters.TexSky.fields p)
  | texNoise p => some (Json.writeRecord Parameters.TexNoise.fields p)
  | texGradient p => some (Json.writeRecord Parameters.TexGradient.fields p)
  | texWave p => some (Json.writeRecord Parameters.TexWave.fields p)
  | colorRamp p => some (Json.writeRecord Parameters.ColorRamp.fields p)
  | mixRgb p => some (Json.writeRecord Parameters.MixRgb.fields p)
  | mix p => some (Json.writeRecord Parameters.Mix.fields p)
  | separateColor p => some (Json.writeRecord Parameters.ColorMode.fields p)
  | combineColor p => some (Json.writeRecord Parameters.ColorMode.fields p)
  | mapping p => some (Json.writeRecord Parameters.Mapping.fields p)
  | normalMap p => some (Json.writeRecord Parameters.NormalMap.fields p)
  | vectorMath p => some (Json.writeRecord Parameters.VectorMath.fields p)
  | mapRange p => some (Json.writeRecord Parameters.MapRange.fields p)
  | math p => some (Json.writeRecord Parameters.Math.fields p)
  | value p => some (Json.writeRecord Parameters.Value.fields p)
  | rgb p => some (Json.writeRecord Parameters.Rgb.fields p)
  | uvMap p => some (Json.writeRecord Parameters.UvMap.fields p)
  | _ => none

/-- Whether this is a type that the library does not know. -/
def isUnknown : Kernel → Bool
  | unknown _ => true
  | _ => false

/-- Whether a node of this type is an output of its graph. -/
def isOutput : Kernel → Bool
  | outputMaterial | outputWorld | outputLight => true
  | _ => false

/-- Whether a node of this type is a closure that radiates light. -/
def isEmitter : Kernel → Bool
  | emission | background => true
  | _ => false

end Kernel

end Candela.Graph
