/-!
# Signatures of shading kernels

Every kernel that generated code may call: the sockets it reads and writes, each stored in a field
of the kernel's struct, the options its call selects, and whether the compute function is part of
the static library or generated as a stand-in. A socket name that is an input and an output is one
field, which the compute function reads and then overwrites.
-/

namespace Candela.Shader

/-- What a field of a kernel's struct holds. -/
inductive FieldKind where
  | float
  | vector
  | color
  | shader
  /-- A field of an explicit type, assigned only by the rule of a node type. -/
  | raw (type : String)
  deriving DecidableEq

/-- The type of a field in shader text. -/
def FieldKind.typeName : FieldKind → String
  | float | vector | color => "vec4f"
  | shader => "Closure"
  | raw type => type

/-- A socket of a kernel. -/
structure Socket where
  /-- The name that graphs use; empty for a field that no graph can reach. -/
  name : String
  /-- The struct field. -/
  field : String
  /-- What the field holds. -/
  kind : FieldKind
  deriving DecidableEq

/-- An option of a kernel: the first value stands in for one that is not known. -/
structure Choice where
  /-- The group of constants it selects from. -/
  group : String
  /-- The value that stands in. -/
  fallback : String
  /-- The other values. -/
  others : List String
  deriving DecidableEq

/-- Every value of an option. -/
def Choice.values (c : Choice) : List String := c.fallback :: c.others

/-- The value of an option that a graph requests: it is named in any mixture of cases. -/
def Choice.select (c : Choice) (requested : String) : String :=
  let name := requested.map Char.toUpper
  (c.values.find? (· == name)).getD c.fallback

/-- Where the compute function of a kernel comes from. -/
inductive Implementation where
  /-- It is part of the static library. -/
  | native
  /-- It is generated, and assigns the given expressions to the given outputs. -/
  | stub (fallbacks : List (String × String))
  deriving DecidableEq

/-- A kernel that generated code may call. -/
structure Signature where
  /-- The name of its struct. -/
  name : String
  /-- The sockets it reads. -/
  inputs : List Socket
  /-- The sockets it writes. -/
  outputs : List Socket
  /-- Its options. -/
  choices : List Choice
  /-- Where its compute function comes from. -/
  implementation : Implementation
  deriving DecidableEq

namespace Signature

/-- The input socket of a name. -/
def input? (s : Signature) (name : String) : Option Socket :=
  s.inputs.find? fun socket => socket.name != "" && socket.name == name

/-- The output socket of a name. -/
def output? (s : Signature) (name : String) : Option Socket := s.outputs.find? (·.name == name)

/-- The option of a group. -/
def choice? (s : Signature) (group : String) : Option Choice := s.choices.find? (·.group == group)

/-- Whether the compute function is generated. -/
def isStub (s : Signature) : Bool :=
  match s.implementation with
  | .stub _ => true
  | .native => false

/-- Keeps the first socket of every field. -/
def firstOfField : List Socket → List Socket → List Socket
  | _, [] => []
  | seen, s :: rest =>
    if seen.any (·.field == s.field) then firstOfField seen rest
    else s :: firstOfField (s :: seen) rest

/-- The struct fields in the order in which they are declared, one socket for each. -/
def fields (s : Signature) : List Socket := firstOfField [] (s.inputs ++ s.outputs)

end Signature

/-! ## Notation of the tables -/

/-- A socket that carries a number. -/
def Socket.float (name field : String) : Socket := ⟨name, field, .float⟩

/-- A socket that carries a vector. -/
def Socket.vector (name field : String) : Socket := ⟨name, field, .vector⟩

/-- A socket that carries a color. -/
def Socket.color (name field : String) : Socket := ⟨name, field, .color⟩

/-- A socket that carries a closure. -/
def Socket.closure (name field : String) : Socket := ⟨name, field, .shader⟩

/-- A field of an explicit type. -/
def Socket.ofType (field type : String) : Socket := ⟨"", field, .raw type⟩

end Candela.Shader
