import Candela.Shader.Catalogue.Options

/-!
# Coordinate kernels

Signatures of the kernels that change coordinates or read the point that is shaded.
-/

namespace Candela.Shader.Catalogue

/-- Kernels that work on coordinates and normals. -/
def vectors : List Signature :=
  [ { name := "Mapping"
      inputs := [.vector "Vector" "vector", .vector "Location" "location",
                 .vector "Rotation" "rotation", .vector "Scale" "scale"]
      outputs := [.vector "Vector" "vector"]
      choices := [⟨"TYPE", "POINT", ["TEXTURE", "VECTOR", "NORMAL"]⟩]
      implementation := .native },
    { name := "NormalMap"
      inputs := [.float "Strength" "strength", .color "Color" "color"]
      outputs := [.vector "Normal" "normal"]
      choices := [⟨"SPACE", "TANGENT", ["OBJECT", "WORLD", "BLENDER_OBJECT", "BLENDER_WORLD"]⟩]
      implementation := .native } ]

/-- Kernels that read the point that is shaded. -/
def contexts : List Signature :=
  [ { name := "TextureCoordinate"
      inputs := []
      outputs := [.vector "Generated" "generated", .vector "Normal" "normal", .vector "UV" "uv",
                  .vector "Object" "object", .vector "Camera" "camera", .vector "Window" "window",
                  .vector "Reflection" "reflection"]
      choices := []
      implementation := .native },
    { name := "NewGeometry"
      inputs := []
      outputs := [.vector "Position" "position", .vector "Normal" "normal",
                  .vector "Tangent" "tangent", .vector "True Normal" "true_normal",
                  .vector "Incoming" "incoming", .vector "Parametric" "parametric",
                  .float "Backfacing" "backfacing", .float "Pointiness" "pointiness",
                  .float "Random Per Island" "random_per_island"]
      choices := []
      implementation := .native },
    { name := "LightPath"
      inputs := []
      outputs := [.float "Is Camera Ray" "is_camera_ray", .float "Is Shadow Ray" "is_shadow_ray",
                  .float "Is Diffuse Ray" "is_diffuse_ray",
                  .float "Is Glossy Ray" "is_glossy_ray",
                  .float "Is Singular Ray" "is_singular_ray",
                  .float "Is Reflection Ray" "is_reflection_ray",
                  .float "Is Transmission Ray" "is_transmission_ray",
                  .float "Ray Length" "ray_length", .float "Ray Depth" "ray_depth",
                  .float "Diffuse Depth" "diffuse_depth", .float "Glossy Depth" "glossy_depth",
                  .float "Transparent Depth" "transparent_depth",
                  .float "Transmission Depth" "transmission_depth"]
      choices := []
      implementation := .native },
    { name := "Fresnel"
      inputs := [.float "IOR" "ior", .vector "Normal" "normal"]
      outputs := [.float "Fac" "fac"]
      choices := []
      implementation := .native },
    { name := "LayerWeight"
      inputs := [.float "Blend" "blend", .vector "Normal" "normal"]
      outputs := [.float "Fresnel" "fresnel", .float "Facing" "facing"]
      choices := []
      implementation := .native },
    { name := "UvMap"
      inputs := []
      outputs := [.vector "UV" "uv"]
      choices := []
      implementation := .native },
    { name := "NormalProduct"
      inputs := [.vector "Normal" "normal"]
      outputs := [.vector "Normal" "normal", .float "Dot" "dot"]
      choices := []
      implementation := .native } ]

end Candela.Shader.Catalogue
