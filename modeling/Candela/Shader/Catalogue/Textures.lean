import Candela.Shader.Catalogue.Options

/-!
# Texture kernels

Signatures of the kernels that sample images, skies and patterns.
-/

namespace Candela.Shader.Catalogue

/-- Kernels that sample or compute a texture. -/
def textures : List Signature :=
  [ { name := "TexImage"
      inputs := [.vector "Vector" "vector"]
      outputs := [.color "Color" "color", .float "Alpha" "alpha"]
      choices := [interpolation, ⟨"PROJECTION", "FLAT", ["BOX", "SPHERE", "TUBE"]⟩,
                  ⟨"EXTENSION", "REPEAT", ["EXTEND", "CLIP", "MIRROR"]⟩,
                  ⟨"ALPHA", "STRAIGHT", ["PREMULTIPLIED", "CHANNEL_PACKED", "NONE"]⟩, colorSpace,
                  pixelFormat]
      implementation := .native },
    { name := "TexEnvironment"
      inputs := [.vector "Vector" "vector"]
      outputs := [.color "Color" "color", .float "Alpha" "alpha"]
      choices := [interpolation, ⟨"PROJECTION", "EQUIRECTANGULAR", ["MIRROR_BALL"]⟩, colorSpace,
                  pixelFormat]
      implementation := .native },
    { name := "TexNishita"
      inputs := [.vector "Vector" "vector", .ofType "data" "array<f32, 10>", .ofType "scale" "f32"]
      outputs := [.color "Color" "color"]
      choices := []
      implementation := .native },
    { name := "TexChecker"
      inputs := [.vector "Vector" "vector", .color "Color1" "color1", .color "Color2" "color2",
                 .float "Scale" "scale"]
      outputs := [.color "Color" "color", .float "Fac" "fac"]
      choices := []
      implementation := .native },
    { name := "TexNoise"
      inputs := [.vector "Vector" "vector", .float "W" "w", .float "Scale" "scale",
                 .float "Detail" "detail", .float "Roughness" "roughness",
                 .float "Distortion" "distortion"]
      outputs := [.float "Fac" "fac", .color "Color" "color"]
      choices := [⟨"DIMENSION", "3D", ["1D", "2D", "4D"]⟩]
      implementation := .native },
    { name := "TexGradient"
      inputs := [.vector "Vector" "vector"]
      outputs := [.color "Color" "color", .float "Fac" "fac"]
      choices := [⟨"TYPE", "LINEAR",
                    ["QUADRATIC", "EASING", "DIAGONAL", "SPHERICAL", "QUADRATIC_SPHERE",
                      "RADIAL"]⟩]
      implementation := .native },
    { name := "TexWave"
      inputs := [.vector "Vector" "vector", .float "Scale" "scale",
                 .float "Distortion" "distortion", .float "Detail" "detail",
                 .float "Detail Scale" "detail_scale",
                 .float "Detail Roughness" "detail_roughness",
                 .float "Phase Offset" "phase_offset"]
      outputs := [.color "Color" "color", .float "Fac" "fac"]
      choices := [⟨"TYPE", "BANDS", ["RINGS"]⟩,
                  ⟨"DIRECTION", "X", ["Y", "Z", "DIAGONAL", "SPHERICAL"]⟩,
                  ⟨"PROFILE", "SIN", ["SAW", "TRI"]⟩]
      implementation := .native } ]

end Candela.Shader.Catalogue
