import Candela.Shader.Catalogue.Closures
import Candela.Shader.Catalogue.Colors
import Candela.Shader.Catalogue.Contexts
import Candela.Shader.Catalogue.Converters
import Candela.Shader.Catalogue.Stubs
import Candela.Shader.Catalogue.Textures

/-!
# The catalogue of kernels

All signatures, in the order in which the header of a shading library declares their structs.
-/

namespace Candela.Shader

/-- Every kernel that generated code may call. -/
def catalogue : List Signature :=
  open Catalogue in
  outputs ++ converters ++ colors ++ textures ++ vectors ++ contexts ++ closures ++ stubs

/-- The kernel of a name. -/
def signature? (name : String) : Option Signature := catalogue.find? (·.name == name)

end Candela.Shader
