import Candela.Shader.Library
import Candela.Shader.Static.Bsdf
import Candela.Shader.Static.Common
import Candela.Shader.Static.Envmap
import Candela.Shader.Static.Nodes
import Candela.Shader.Static.Wavefront

/-!
# The source of a shading library

The complete text that is handed to the shader compiler: a header with the textures, the constants
of all options, the structs of all kernels and the generated compute functions, then the static text
and the compiled functions, and a dispatcher for each role that calls a function by its index.
-/

namespace Candela.Shader

/-- The static parts of a library. -/
structure StaticText where
  common : String
  nodes : String
  bsdf : String
  wavefront : String
  envmap : String

/-- The static parts that this library is made of. -/
def StaticText.standard : StaticText where
  common := Static.common
  nodes := Static.nodes
  bsdf := Static.bsdf
  wavefront := Static.wavefront
  envmap := Static.envmap

/-! ## Header -/

/-- The constant with the format of a texture. -/
def formatConstant (slot : Nat) (format : Texture.PixelFormat) : String :=
  "const " ++ pixelFormatConstant slot ++ ": u32 = " ++ toString format.code ++ "u;\n"

/-- The binding of a texture. -/
def textureBinding (slot : Nat) : String :=
  "@group(1) @binding(" ++ toString (slot + 2) ++ ") var tex" ++ toString slot ++
    ": texture_2d<f32>;\n"

/-- The case that samples a texture. -/
def sampleCase (slot : Nat) : String :=
  let tex := "tex" ++ toString slot
  "        case " ++ toString slot ++ "u: \x7b\n" ++
    "            if nearest \x7b return textureSampleLevel(" ++ tex ++
    ", nearest_sampler, uv, 0.0); \x7d\n" ++
    "            return textureSampleLevel(" ++ tex ++ ", linear_sampler, uv, 0.0);\n" ++
    "        \x7d\n"

/-- The case that measures a texture. -/
def sizeCase (slot : Nat) : String :=
  "        case " ++ toString slot ++ "u: \x7b return vec2f(textureDimensions(tex" ++
    toString slot ++ ")); \x7d\n"

/-- How many textures are bound: at least one, since bindings cannot be empty. -/
def boundTextures (count : Nat) : Nat := min (max count 1) Texture.maxSlots

/-- The constants, bindings and access functions of the textures. -/
def textureHeader (formats : List Texture.PixelFormat) : String :=
  let bound := List.range (boundTextures formats.length)
  "const NUMBER_OF_TEXTURES: u32 = " ++ toString formats.length ++ "u;\n" ++
    String.join (formats.zipIdx.map fun (format, slot) => formatConstant slot format) ++
    "\n@group(1) @binding(0) var linear_sampler: sampler;\n" ++
    "@group(1) @binding(1) var nearest_sampler: sampler;\n" ++
    String.join (bound.map textureBinding) ++
    "\nfn sample_texture(slot: u32, uv: vec2f, nearest: bool) -> vec4f \x7b\n" ++
    "    switch slot \x7b\n" ++
    String.join (bound.map sampleCase) ++
    "        default: \x7b return vec4f(0.0); \x7d\n    \x7d\n\x7d\n\n" ++
    "fn texture_size(slot: u32) -> vec2f \x7b\n    switch slot \x7b\n" ++
    String.join (bound.map sizeCase) ++
    "        default: \x7b return vec2f(1.0); \x7d\n    \x7d\n\x7d\n\n"

/-- The constants of an option of a kernel. -/
def choiceConstants (kernel : String) (c : Choice) : String :=
  String.join (c.values.zipIdx.map fun (value, index) =>
    "const " ++ choiceConstant kernel c.group value ++ ": u32 = " ++ toString index ++ "u;\n")

/-- What a generated compute function assigns to an output: the expression of the kernel's table, or
the normal of the point that is shaded, or what stands for nothing. -/
def stubValue (fallbacks : List (String × String)) (output : Socket) : String :=
  match fallbacks.lookup output.field with
  | some e => e
  | none =>
    if output.field = "normal" then (Expression.context .normal).text
    else (Expression.absent output.kind).text

/-- The generated compute function of a kernel. Outputs that are inputs as well are left alone. -/
def stubFunction (s : Signature) (fallbacks : List (String × String)) : String :=
  let outputs := s.outputs.filter fun o => !s.inputs.any (·.field == o.field)
  "fn " ++ s.name ++ "_compute(n: ptr<function, " ++ s.name ++
    ">, shading: ptr<function, ShadingContext>) \x7b\n" ++
    String.join (outputs.map fun o =>
      "    (*n)." ++ o.field ++ " = " ++ stubValue fallbacks o ++ ";\n") ++
    "\x7d\n\n"

/-- The compute function of a kernel, if it is generated. -/
def generatedFunction (s : Signature) : String :=
  match s.implementation with
  | .native => ""
  | .stub fallbacks => stubFunction s fallbacks

/-- The header of a library: a stamp, and everything that the rest refers to. -/
def header (stamp : String) (formats : List Texture.PixelFormat) : String :=
  "// wavetrace shading library, built " ++ stamp ++ "\n" ++ textureHeader formats ++
    String.join (catalogue.flatMap fun s => s.choices.map (choiceConstants s.name)) ++ "\n" ++
    String.join (catalogue.map fun s => s.struct.text) ++ String.join (catalogue.map generatedFunction)

/-! ## The whole text -/

/-- A function that calls the functions of a table by their index. -/
def dispatcher (name selector : String) (functions : List String) : String :=
  "fn " ++ name ++ "(" ++ selector ++ ": u32, shading: ptr<function, ShadingContext>) \x7b\n" ++
    "    switch " ++ selector ++ " \x7b\n" ++
    String.join (functions.zipIdx.map fun (function, index) =>
      "        case " ++ toString index ++ "u: \x7b " ++ function ++ "(shading); \x7d\n") ++
    "        default: \x7b\x7d\n    \x7d\n\x7d\n\n"

/-- The source of a library for textures of the given formats. -/
def Library.source (l : Library) (static : StaticText) (stamp : String)
    (formats : List Texture.PixelFormat) : String :=
  header stamp formats ++ static.common ++ "\n" ++ static.nodes ++ "\n" ++ static.bsdf ++ "\n" ++
    l.body ++ dispatcher "shade_surface" "material" (l.table .surface) ++
    dispatcher "shade_light" "shader" (l.table .light) ++ static.wavefront ++ "\n" ++ static.envmap

/-- A compiled library and what has to be bound to use it. -/
structure Built where
  /-- The source. -/
  source : String
  /-- The texels of every slot. -/
  textures : List Texture.Data
  /-- The functions of surfaces, by index. -/
  surfaces : List String
  /-- The functions of lights, by index. -/
  lights : List String

/-- Loads the textures, writes the source and hands it to a compiler. -/
def Library.build (l : Library) (stamp : String) (load : String → Option Texture.Data)
    (maxDimension : Nat) (compile : String → Except Error Unit) : Except Error Built := do
  let textures := l.registry.loadAll load maxDimension
  let source := l.source .standard stamp (textures.map (·.format))
  compile source
  return ⟨source, textures, l.table .surface, l.table .light⟩

end Candela.Shader
