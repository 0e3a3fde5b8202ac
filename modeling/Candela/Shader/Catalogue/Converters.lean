import Candela.Shader.Catalogue.Options

/-!
# Outputs and converters

Signatures of the outputs of a graph and of the kernels that convert data.
-/

namespace Candela.Shader.Catalogue

/-- Outputs of a graph. -/
def outputs : List Signature :=
  [ { name := "OutputMaterial"
      inputs := [.closure "Surface" "surface", .closure "Volume" "volume",
                 .vector "Displacement" "displacement"]
      outputs := []
      choices := []
      implementation := .native },
    { name := "OutputWorld"
      inputs := [.closure "Surface" "surface", .closure "Volume" "volume"]
      outputs := []
      choices := []
      implementation := .native },
    { name := "OutputLight"
      inputs := [.closure "Surface" "surface"]
      outputs := []
      choices := []
      implementation := .native } ]

/-- Kernels that compute numbers, vectors and colors from one another. -/
def converters : List Signature :=
  [ { name := "Value"
      inputs := []
      outputs := [.float "Value" "value"]
      choices := []
      implementation := .native },
    { name := "Rgb"
      inputs := []
      outputs := [.color "Color" "color"]
      choices := []
      implementation := .native },
    { name := "Math"
      inputs := [.float "Value" "value", .float "Value_001" "value_001",
                 .float "Value_002" "value_002"]
      outputs := [.float "Value" "value"]
      choices := [⟨"OPERATION", "ADD", mathOperations⟩]
      implementation := .native },
    { name := "VectorMath"
      inputs := [.vector "Vector" "vector", .vector "Vector_001" "vector_001",
                 .vector "Vector_002" "vector_002", .float "Scale" "scale"]
      outputs := [.vector "Vector" "vector", .float "Value" "value"]
      choices := [⟨"OPERATION", "ADD", vectorOperations⟩]
      implementation := .native },
    { name := "MapRange"
      inputs := [.float "Value" "value", .float "From Min" "from_min",
                 .float "From Max" "from_max", .float "To Min" "to_min", .float "To Max" "to_max",
                 .float "Steps" "steps"]
      outputs := [.float "Result" "result"]
      choices := [⟨"DATA_TYPE", "FLOAT", []⟩,
                  ⟨"INTERPOLATION_TYPE", "LINEAR", ["STEPPED", "SMOOTHSTEP", "SMOOTHERSTEP"]⟩]
      implementation := .native },
    { name := "SeparateXyz"
      inputs := [.vector "Vector" "vector"]
      outputs := [.float "X" "x", .float "Y" "y", .float "Z" "z"]
      choices := []
      implementation := .native },
    { name := "CombineXyz"
      inputs := [.float "X" "x", .float "Y" "y", .float "Z" "z"]
      outputs := [.vector "Vector" "vector"]
      choices := []
      implementation := .native },
    { name := "Blackbody"
      inputs := [.float "Temperature" "temperature"]
      outputs := [.color "Color" "color"]
      choices := []
      implementation := .native } ]

end Candela.Shader.Catalogue
