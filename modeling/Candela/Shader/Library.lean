import Candela.Shader.Compile

/-!
# Libraries of shading functions

A `Library` collects the functions of materials and lights. Adding a graph compiles it with the
textures that have slots so far; if that fails, the textures it has given slots to are forgotten
and nothing else has happened. Functions of surfaces and functions of lights are numbered apart.
-/

namespace Candela.Shader

/-- The function of a material or light. -/
structure Function where
  /-- What it is for. -/
  role : Role
  /-- The name of the material. -/
  title : String
  /-- Its name in generated code. -/
  name : String
  /-- Its code. -/
  blocks : List Block

/-- The text of a function, under a comment that says what it is for. -/
def Function.text (f : Function) : String :=
  "// " ++ f.role.name ++ ": " ++ f.title ++ "\nfn " ++ f.name ++
    "(shading: ptr<function, ShadingContext>) \x7b" ++ String.join (f.blocks.map Block.text) ++
    "\x7d\n\n"

/-- The functions that have been compiled, and the textures they sample. -/
structure Library where
  /-- The textures that have slots. -/
  registry : Texture.Registry
  /-- The functions, in the order in which they were added. -/
  functions : List Function

namespace Library

/-- Nothing has been compiled. -/
def empty : Library := ⟨.empty, []⟩

/-- The names of all functions. -/
def functionNames (l : Library) : List String := l.functions.map (·.name)

/-- The names of the functions of a role, by their index. -/
def table (l : Library) (role : Role) : List String :=
  (l.functions.filter (·.role = role)).map (·.name)

/-- The text of all functions. -/
def body (l : Library) : String := String.join (l.functions.map Function.text)

/-- The name of the next function for a material. -/
def freshName (l : Library) (title : String) : String :=
  Text.fresh l.functionNames ("s_" ++ Text.snake title) ""

/-- Compiles a graph and adds its function, which gets the next index of its role. -/
def add (l : Library) (title : String) (g : Graph) (role : Role) : Except Error Nat × Library :=
  match (emitGraph g role).run (.start l.registry) with
  | .error e p => (.error e, { l with registry := p.registry.truncate l.registry.size })
  | .ok _ p =>
    let f : Function := ⟨role, title, l.freshName title, p.blocks⟩
    (.ok (l.table role).length, ⟨p.registry, l.functions ++ [f]⟩)

end Library

end Candela.Shader
