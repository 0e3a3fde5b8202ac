import Candela.Graph.Emission
import Candela.Shader.Library

/-!
# Materials

The materials of a scene are graphs by name. A graph is compiled when its material is first asked
for in some role, and the index it gets then stays its index. The same graph may be compiled as a
surface and as a light; the two have indices of their own.
-/

namespace Candela

/-- The graphs of a scene, and what has been compiled of them. -/
structure Materials where
  /-- The graphs, by the names of their materials. -/
  graphs : Keyed Graph
  /-- What has been compiled. -/
  shaders : Shader.Library

namespace Materials

/-- Nothing has been compiled. -/
def ofGraphs (graphs : Keyed Graph) : Materials := ⟨graphs, .empty⟩

/-- The materials that have been compiled in a role, by their index. -/
def compiled (m : Materials) (role : Shader.Role) : List String :=
  (m.shaders.functions.filter (·.role = role)).map (·.title)

/-- The index of a material in a role; it is compiled when it has none yet. -/
def index (m : Materials) (role : Shader.Role) (name : String) : Except Error Nat × Materials :=
  match (m.compiled role).idxOf? name with
  | some i => (.ok i, m)
  | none =>
    match m.graphs.get? name with
    | none => (.error (.missingMaterial name), m)
    | some g =>
      let (result, shaders) := m.shaders.add name g role
      (result, { m with shaders := shaders })

/-- Whether the surface of a material radiates light; one that does not exist does not. -/
def hasEmission (m : Materials) (name : String) : Bool :=
  match m.graphs.get? name with
  | some g => g.hasSurfaceEmission
  | none => false

/-- For every surface index, whether its material radiates light. -/
def emissiveSurfaces (m : Materials) : List Bool := (m.compiled .surface).map m.hasEmission

/-- How many surfaces have been compiled. -/
def surfaceCount (m : Materials) : Nat := (m.compiled .surface).length

end Materials

end Candela
