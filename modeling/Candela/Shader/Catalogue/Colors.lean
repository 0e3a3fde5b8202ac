import Candela.Shader.Catalogue.Options

/-!
# Color kernels

Signatures of the kernels that mix and change colors.
-/

namespace Candela.Shader.Catalogue

/-- Kernels that work on colors. -/
def colors : List Signature :=
  [ { name := "Mix"
      inputs := [.float "Factor_Float" "factor_float", .vector "Factor_Vector" "factor_vector",
                 .float "A_Float" "a_float", .float "B_Float" "b_float",
                 .vector "A_Vector" "a_vector", .vector "B_Vector" "b_vector",
                 .color "A_Color" "a_color", .color "B_Color" "b_color"]
      outputs := [.float "Result_Float" "result_float", .vector "Result_Vector" "result_vector",
                  .color "Result_Color" "result_color"]
      choices := [⟨"FACTOR_MODE", "UNIFORM", ["NON_UNIFORM"]⟩, ⟨"BLEND_TYPE", "MIX", blendTypes⟩]
      implementation := .native },
    { name := "MixRgb"
      inputs := [.float "Fac" "fac", .color "Color1" "color1", .color "Color2" "color2"]
      outputs := [.color "Color" "color"]
      choices := [⟨"BLEND_TYPE", "MIX", blendTypes⟩]
      implementation := .native },
    { name := "ColorRamp"
      inputs := [.float "Fac" "fac", .ofType "elements" "array<RampElement, 32>"]
      outputs := [.color "Color" "color", .float "Alpha" "alpha"]
      choices := [⟨"INTERPOLATION", "LINEAR", ["CONSTANT", "EASE"]⟩]
      implementation := .native },
    { name := "Invert"
      inputs := [.float "Fac" "fac", .color "Color" "color"]
      outputs := [.color "Color" "color"]
      choices := []
      implementation := .native },
    { name := "RgbToBw"
      inputs := [.color "Color" "color"]
      outputs := [.float "Val" "val"]
      choices := []
      implementation := .native },
    { name := "SeparateColor"
      inputs := [.color "Color" "color"]
      outputs := [.float "Red" "red", .float "Green" "green", .float "Blue" "blue"]
      choices := [colorMode]
      implementation := .native },
    { name := "CombineColor"
      inputs := [.float "Red" "red", .float "Green" "green", .float "Blue" "blue"]
      outputs := [.color "Color" "color"]
      choices := [colorMode]
      implementation := .native },
    { name := "HueSaturation"
      inputs := [.float "Hue" "hue", .float "Saturation" "saturation", .float "Value" "value",
                 .float "Fac" "fac", .color "Color" "color"]
      outputs := [.color "Color" "color"]
      choices := []
      implementation := .native },
    { name := "BrightnessContrast"
      inputs := [.color "Color" "color", .float "Bright" "bright", .float "Contrast" "contrast"]
      outputs := [.color "Color" "color"]
      choices := []
      implementation := .native },
    { name := "Gamma"
      inputs := [.color "Color" "color", .float "Gamma" "gamma"]
      outputs := [.color "Color" "color"]
      choices := []
      implementation := .native } ]

end Candela.Shader.Catalogue
