import Candela.Material

/-!
# A ledger of materials

While a scene is assembled, materials are asked for again and again: for their indices, and whether
they radiate light. A `Ledger` writes down what it has answered, so that a graph is compiled once
for each role and searched for light once: the indices by role and name, the answers about light by
name, and the names of the surfaces by index. These notes are kept beside the compiled functions,
each on its own.
-/

namespace Candela.Materials

/-- Materials, what has been compiled of them, and what has been answered about them. -/
structure Ledger where
  /-- The graphs, by the names of their materials. -/
  graphs : Keyed Graph
  /-- What has been compiled. -/
  shaders : Shader.Library
  /-- The indices that have been given out. -/
  indices : List ((Shader.Role × String) × Nat)
  /-- Whether a material radiates light, for those that have been asked about. -/
  emissive : Keyed Bool
  /-- The names of the surfaces, by their index. -/
  surfaces : List String

/-- What a ledger can be asked. -/
inductive Call where
  /-- The index of a material in a role. -/
  | index (role : Shader.Role) (name : String)
  /-- Whether a material radiates light. -/
  | hasEmission (name : String)
  /-- Whether the surfaces radiate light. -/
  | emissiveSurfaces

/-- What a ledger answers. -/
inductive Answer where
  | index (result : Except Error Nat)
  | flag (radiates : Bool)
  | flags (radiate : List Bool)

namespace Ledger

/-- Nothing has been asked. -/
def ofGraphs (graphs : Keyed Graph) : Ledger := ⟨graphs, .empty, [], .empty, []⟩

/-- The index of a material in a role. It is looked up; a material that has none is compiled, and
only if this succeeds anything is written down. -/
def index (l : Ledger) (role : Shader.Role) (name : String) : Except Error Nat × Ledger :=
  match l.indices.lookup (role, name) with
  | some i => (.ok i, l)
  | none =>
    match l.graphs.get? name with
    | none => (.error (.missingMaterial name), l)
    | some g =>
      match l.shaders.add name g role with
      | (.error e, shaders) => (.error e, { l with shaders })
      | (.ok i, shaders) =>
        let surfaces := if role = .surface then l.surfaces ++ [name] else l.surfaces
        (.ok i, { l with shaders, surfaces, indices := ((role, name), i) :: l.indices })

/-- Whether the surface of a material radiates light; one that does not exist does not. The graph is
searched when this is first asked. -/
def hasEmission (l : Ledger) (name : String) : Bool × Ledger :=
  match l.emissive.get? name with
  | some flag => (flag, l)
  | none =>
    let flag := ((l.graphs.get? name).map Graph.hasSurfaceEmission).getD false
    (flag, { l with emissive := l.emissive.insert name flag })

/-- Whether some materials radiate light, one asked about after another. -/
def emissions (l : Ledger) : List String → List Bool × Ledger
  | [] => ([], l)
  | name :: rest =>
    let (flag, l) := l.hasEmission name
    let (flags, l) := l.emissions rest
    (flag :: flags, l)

/-- For every surface index, whether its material radiates light. -/
def emissiveSurfaces (l : Ledger) : List Bool × Ledger := l.emissions l.surfaces

/-- How many surfaces there are. -/
def surfaceCount (l : Ledger) : Nat := l.surfaces.length

/-- Answers a call. -/
def step (l : Ledger) : Call → Answer × Ledger
  | .index role name => (l.index role name).map .index id
  | .hasEmission name => (l.hasEmission name).map .flag id
  | .emissiveSurfaces => l.emissiveSurfaces.map .flags id

/-- Answers calls one after another. -/
def run (l : Ledger) : List Call → List Answer × Ledger
  | [] => ([], l)
  | c :: rest =>
    let (answer, l) := l.step c
    let (answers, l) := l.run rest
    (answer :: answers, l)

/-- The ledger of some materials after some calls. -/
def after (graphs : Keyed Graph) (calls : List Call) : Ledger := ((ofGraphs graphs).run calls).2

end Ledger

end Candela.Materials
