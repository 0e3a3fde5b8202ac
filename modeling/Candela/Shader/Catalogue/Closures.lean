import Candela.Shader.Catalogue.Options

/-!
# Closure kernels

Signatures of the kernels that make, add and mix closures.
-/

namespace Candela.Shader.Catalogue

/-- Kernels that make closures. -/
def closures : List Signature :=
  [ { name := "Emission"
      inputs := [.color "Color" "color", .float "Strength" "strength"]
      outputs := [.closure "Emission" "emission"]
      choices := []
      implementation := .native },
    { name := "Background"
      inputs := [.color "Color" "color", .float "Strength" "strength"]
      outputs := [.closure "Background" "background"]
      choices := []
      implementation := .native },
    { name := "BsdfPrincipled"
      inputs := [.color "Base Color" "base_color", .float "Metallic" "metallic",
                 .float "Specular" "specular", .float "Specular IOR Level" "specular",
                 .color "Specular Tint" "specular_tint", .float "Roughness" "roughness",
                 .float "IOR" "ior", .float "Transmission" "transmission",
                 .float "Transmission Weight" "transmission", .color "Emission" "emission",
                 .color "Emission Color" "emission",
                 .float "Emission Strength" "emission_strength", .float "Alpha" "alpha",
                 .vector "Normal" "normal", .float "Clearcoat" "clearcoat",
                 .float "Coat Weight" "clearcoat",
                 .float "Clearcoat Roughness" "clearcoat_roughness",
                 .float "Coat Roughness" "clearcoat_roughness", .float "Sheen" "sheen",
                 .float "Sheen Weight" "sheen"]
      outputs := [.closure "BSDF" "bsdf"]
      choices := [distribution,
                  ⟨"SUBSURFACE_METHOD", "BURLEY",
                    ["RANDOM_WALK", "RANDOM_WALK_SKIN", "RANDOM_WALK_FIXED_RADIUS"]⟩]
      implementation := .native },
    { name := "BsdfDiffuse"
      inputs := [.color "Color" "color", .float "Roughness" "roughness", .vector "Normal" "normal"]
      outputs := [.closure "BSDF" "bsdf"]
      choices := []
      implementation := .native },
    { name := "BsdfGlossy"
      inputs := [.color "Color" "color", .float "Roughness" "roughness", .vector "Normal" "normal"]
      outputs := [.closure "BSDF" "bsdf"]
      choices := [distribution]
      implementation := .native },
    { name := "BsdfGlass"
      inputs := [.color "Color" "color", .float "Roughness" "roughness", .float "IOR" "ior",
                 .vector "Normal" "normal"]
      outputs := [.closure "BSDF" "bsdf"]
      choices := [distribution]
      implementation := .native },
    { name := "BsdfTransparent"
      inputs := [.color "Color" "color"]
      outputs := [.closure "BSDF" "bsdf"]
      choices := []
      implementation := .native },
    { name := "AddShader"
      inputs := [.closure "Shader" "shader", .closure "Shader_001" "shader_001"]
      outputs := [.closure "Shader" "shader"]
      choices := []
      implementation := .native },
    { name := "MixShader"
      inputs := [.float "Fac" "fac", .closure "Shader" "shader",
                 .closure "Shader_001" "shader_001"]
      outputs := [.closure "Shader" "shader"]
      choices := []
      implementation := .native } ]

end Candela.Shader.Catalogue
