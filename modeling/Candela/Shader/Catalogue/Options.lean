import Candela.Shader.Signature

/-!
# Options of the kernels

Options, and lists of values of options, that several kernels share. The lists leave out the first
value, which is the one that stands in.
-/

namespace Candela.Shader.Catalogue

/-- How two colors are blended, besides `MIX`. -/
def blendTypes : List String :=
  ["DARKEN", "MULTIPLY", "BURN", "LIGHTEN", "SCREEN", "DODGE", "ADD", "OVERLAY", "SOFT_LIGHT",
    "LINEAR_LIGHT", "DIFFERENCE", "EXCLUSION", "SUBTRACT", "DIVIDE", "HUE", "SATURATION", "COLOR",
    "VALUE"]

/-- Operations on numbers, besides `ADD`. -/
def mathOperations : List String :=
  ["SUBTRACT", "MULTIPLY", "DIVIDE", "MULTIPLY_ADD", "POWER", "LOGARITHM", "SQRT",
    "INVERSE_SQRT", "ABSOLUTE", "EXPONENT", "MINIMUM", "MAXIMUM", "LESS_THAN", "GREATER_THAN",
    "SIGN", "COMPARE", "SMOOTH_MIN", "SMOOTH_MAX", "ROUND", "FLOOR", "CEIL", "TRUNC", "FRACT",
    "MODULO", "FLOORED_MODULO", "WRAP", "SNAP", "PINGPONG", "SINE", "COSINE", "TANGENT",
    "ARCSINE", "ARCCOSINE", "ARCTANGENT", "ARCTAN2", "SINH", "COSH", "TANH", "RADIANS", "DEGREES"]

/-- Operations on vectors, besides `ADD`. -/
def vectorOperations : List String :=
  ["SUBTRACT", "MULTIPLY", "DIVIDE", "MULTIPLY_ADD", "CROSS_PRODUCT", "PROJECT", "REFLECT",
    "REFRACT", "FACEFORWARD", "DOT_PRODUCT", "DISTANCE", "LENGTH", "SCALE", "NORMALIZE",
    "ABSOLUTE", "MINIMUM", "MAXIMUM", "FLOOR", "CEIL", "FRACTION", "MODULO", "WRAP", "SNAP",
    "SINE", "COSINE", "TANGENT"]

/-- How texels are interpolated. -/
def interpolation : Choice :=
  ⟨"INTERPOLATION", "LINEAR", ["CLOSEST", "CUBIC", "SMART"]⟩

/-- The color space of a texture. -/
def colorSpace : Choice :=
  ⟨"COLOR_SPACE", "LINEAR", ["SRGB"]⟩

/-- The channels of a texture. -/
def pixelFormat : Choice :=
  ⟨"PIXEL_FORMAT", "RGBA", ["R"]⟩

/-- The microfacet distribution. -/
def distribution : Choice :=
  ⟨"DISTRIBUTION", "GGX", ["MULTI_GGX"]⟩

/-- The color model. -/
def colorMode : Choice :=
  ⟨"MODE", "RGB", ["HSV", "HSL"]⟩

end Candela.Shader.Catalogue
