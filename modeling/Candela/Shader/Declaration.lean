import Candela.Shader.Signature

/-!
# Declarations of shader text

The structs and functions that generated code refers to. A declaration is data until the whole
library is written, so that what the text declares can be looked up without reading the text.
-/

namespace Candela.Shader

/-- A struct of shader text. -/
structure Struct where
  /-- Its name. -/
  name : String
  /-- Its fields and their types, in order. -/
  fields : List (String × String)
  deriving DecidableEq

/-- The text of a struct. -/
def Struct.text (s : Struct) : String :=
  "struct " ++ s.name ++ " \x7b\n" ++
    String.join (s.fields.map fun f => "    " ++ f.1 ++ ": " ++ f.2 ++ ",\n") ++
    "\x7d\n\n"

/-- The type of a field. -/
def Struct.type? (s : Struct) (field : String) : Option String := s.fields.lookup field

/-- A function of shader text. -/
structure Helper where
  /-- Its name. -/
  name : String
  /-- Its parameters and their types, in order. -/
  parameters : List (String × String)
  /-- The type of its result. -/
  result : String
  /-- The lines of its body. -/
  body : List String
  deriving DecidableEq

/-- The text of a function. -/
def Helper.text (f : Helper) : String :=
  "fn " ++ f.name ++ "(" ++ ", ".intercalate (f.parameters.map fun p => p.1 ++ ": " ++ p.2) ++
    ") -> " ++ f.result ++ " \x7b\n" ++
    String.join (f.body.map fun line => "    " ++ line ++ "\n") ++
    "\x7d\n\n"

/-- The text of a call of a function. -/
def Helper.call (f : Helper) (arguments : List String) : String :=
  f.name ++ "(" ++ ", ".intercalate arguments ++ ")"

/-- The struct of a kernel: a field for every socket, of the type of the first socket of its
name. -/
def Signature.struct (s : Signature) : Struct :=
  ⟨s.name, s.fields.map fun socket => (socket.field, socket.kind.typeName)⟩

end Candela.Shader
