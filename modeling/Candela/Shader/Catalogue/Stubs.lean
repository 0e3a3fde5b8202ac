import Candela.Shader.Catalogue.Options

/-!
# Kernels with generated bodies

Signatures of the kernels for which a compute function is generated: it assigns the listed
expressions to the listed outputs.
-/

namespace Candela.Shader.Catalogue

/-- Kernels whose compute functions are generated. -/
def stubs : List Signature :=
  [ { name := "TexIes"
      inputs := [.vector "Vector" "vector", .float "Strength" "strength"]
      outputs := [.float "Fac" "fac"]
      choices := []
      implementation := .stub [("fac", "(*n).strength")] },
    { name := "TexMagic"
      inputs := [.vector "Vector" "vector", .float "Scale" "scale",
                 .float "Distortion" "distortion"]
      outputs := [.color "Color" "color", .float "Fac" "fac"]
      choices := []
      implementation := .stub [] },
    { name := "TexVoronoi"
      inputs := [.vector "Vector" "vector", .float "Scale" "scale",
                 .float "Randomness" "randomness"]
      outputs := [.float "Distance" "distance", .color "Color" "color",
                  .vector "Position" "position", .float "W" "w", .float "Radius" "radius"]
      choices := []
      implementation := .stub [] },
    { name := "TexMusgrave"
      inputs := [.vector "Vector" "vector", .float "Scale" "scale", .float "Detail" "detail"]
      outputs := [.float "Fac" "fac", .float "Height" "height"]
      choices := []
      implementation := .stub [] },
    { name := "TexBrick"
      inputs := [.vector "Vector" "vector", .color "Color1" "color1", .color "Color2" "color2",
                 .color "Mortar" "mortar", .float "Scale" "scale"]
      outputs := [.color "Color" "color", .float "Fac" "fac"]
      choices := []
      implementation := .stub [("color", "(*n).color1")] },
    { name := "AmbientOcclusion"
      inputs := [.color "Color" "color", .float "Distance" "distance", .vector "Normal" "normal"]
      outputs := [.color "Color" "color", .float "AO" "ao"]
      choices := []
      implementation := .stub [("ao", "vec4f(1.0)")] },
    { name := "VolumeScatter"
      inputs := [.color "Color" "color", .float "Density" "density"]
      outputs := [.closure "Volume" "volume"]
      choices := []
      implementation := .stub [] },
    { name := "Displacement"
      inputs := [.float "Height" "height", .float "Midlevel" "midlevel", .float "Scale" "scale",
                 .vector "Normal" "normal"]
      outputs := [.vector "Displacement" "displacement"]
      choices := []
      implementation := .stub [] },
    { name := "BsdfVelvet"
      inputs := [.color "Color" "color", .float "Sigma" "sigma", .vector "Normal" "normal"]
      outputs := [.closure "BSDF" "bsdf"]
      choices := []
      implementation := .stub [("bsdf", "closure_diffuse((*n).color)")] },
    { name := "BsdfHair"
      inputs := [.color "Color" "color", .float "Offset" "offset",
                 .float "RoughnessU" "roughness_u"]
      outputs := [.closure "BSDF" "bsdf"]
      choices := []
      implementation := .stub [("bsdf", "closure_diffuse((*n).color)")] },
    { name := "BsdfTranslucent"
      inputs := [.color "Color" "color", .vector "Normal" "normal"]
      outputs := [.closure "BSDF" "bsdf"]
      choices := []
      implementation := .stub [("bsdf", "closure_diffuse((*n).color)")] },
    { name := "BsdfRefraction"
      inputs := [.color "Color" "color", .float "Roughness" "roughness", .float "IOR" "ior",
                 .vector "Normal" "normal"]
      outputs := [.closure "BSDF" "bsdf"]
      choices := []
      implementation := .stub [("bsdf", "closure_diffuse((*n).color)")] },
    { name := "BsdfAnisotropic"
      inputs := [.color "Color" "color", .float "Roughness" "roughness",
                 .float "Anisotropy" "anisotropy", .float "Rotation" "rotation",
                 .vector "Normal" "normal"]
      outputs := [.closure "BSDF" "bsdf"]
      choices := []
      implementation := .stub [("bsdf", "closure_diffuse((*n).color)")] },
    { name := "Bump"
      inputs := [.float "Strength" "strength", .float "Distance" "distance",
                 .float "Height" "height", .vector "Normal" "normal"]
      outputs := [.vector "Normal" "normal"]
      choices := []
      implementation := .stub [] },
    { name := "Attribute"
      inputs := []
      outputs := [.color "Color" "color", .vector "Vector" "vector", .float "Fac" "fac",
                  .float "Alpha" "alpha"]
      choices := []
      implementation :=
        .stub [("color", "vec4f(1.0)"), ("fac", "vec4f(1.0)"), ("alpha", "vec4f(1.0)")] },
    { name := "ObjectInfo"
      inputs := []
      outputs := [.vector "Location" "location", .color "Color" "color", .float "Alpha" "alpha",
                  .float "Object Index" "object_index", .float "Material Index" "material_index",
                  .float "Random" "random"]
      choices := []
      implementation :=
        .stub [("color", "vec4f(1.0)"), ("alpha", "vec4f(1.0)"), ("random", "vec4f(0.5)")] },
    { name := "ParticleInfo"
      inputs := []
      outputs := [.float "Index" "index", .float "Random" "random", .float "Age" "age",
                  .float "Lifetime" "lifetime", .vector "Location" "location",
                  .float "Size" "size", .vector "Velocity" "velocity",
                  .vector "Angular Velocity" "angular_velocity"]
      choices := []
      implementation := .stub [] },
    { name := "LightFalloff"
      inputs := [.float "Strength" "strength", .float "Smooth" "smooth_factor"]
      outputs := [.float "Quadratic" "quadratic_falloff", .float "Linear" "linear_falloff",
                  .float "Constant" "constant_falloff"]
      choices := []
      implementation :=
        .stub [("quadratic_falloff", "(*n).strength"), ("linear_falloff", "(*n).strength"),
          ("constant_falloff", "(*n).strength")] },
    { name := "VertexColor"
      inputs := []
      outputs := [.color "Color" "color", .float "Alpha" "alpha"]
      choices := []
      implementation := .stub [("color", "vec4f(1.0)"), ("alpha", "vec4f(1.0)")] },
    { name := "ColorCurves"
      inputs := [.float "Fac" "fac", .color "Color" "color"]
      outputs := [.color "Color" "color"]
      choices := []
      implementation := .stub [] } ]

end Candela.Shader.Catalogue
