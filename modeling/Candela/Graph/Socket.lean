import Candela.Json.Decode

/-!
# Sockets of a node graph

What stands on an input of a node: the type of its socket, the links that feed it, and the literal
that counts when there are none.
-/

namespace Candela.Graph

/-- A literal value of an input. -/
inductive Literal where
  | scalar (x : Float32)
  | vector (xs : List Float32)
  deriving DecidableEq

namespace Literal

/-- Four lanes: a scalar fills all of them, a vector the first ones; a missing lane is zero, and a
missing fourth lane is `fill`. -/
def toVec4 (fill : Float32) : Literal → Vec4 Float32
  | .scalar x => .splat x
  | .vector xs => ⟨xs.getD 0 0, xs.getD 1 0, xs.getD 2 0, xs.getD 3 fill⟩

/-- Whether every component is zero, of either sign. -/
def isZero : Literal → Bool
  | .scalar x => x == 0
  | .vector xs => xs.all (· == 0)

/-- A literal is a number or a list of numbers. -/
def ofJson? : Json → Option Literal
  | .array items => (items.mapM Json.toSingle?).map .vector
  | j => j.toSingle?.map .scalar

end Literal

/-- A reference to an output of another node. -/
structure Link where
  /-- The name of the node. -/
  node : String
  /-- The name of its output. -/
  property : String
  deriving DecidableEq

/-- A link is a pair of names. -/
def Link.ofJson? : Json → Option Link
  | .array [.string node, .string property] => some ⟨node, property⟩
  | _ => none

/-- What a socket carries. -/
inductive SocketType where
  | value
  | int
  | boolean
  | vector
  | rgba
  | shader
  | string
  | other
  deriving DecidableEq

namespace SocketType

/-- The name of a socket type. -/
def name : SocketType → String
  | value => "VALUE"
  | int => "INT"
  | boolean => "BOOLEAN"
  | vector => "VECTOR"
  | rgba => "RGBA"
  | shader => "SHADER"
  | string => "STRING"
  | other => "OTHER"

/-- The socket type of a name; a name that is not known is `other`. -/
def ofName (name : String) : SocketType :=
  ([value, int, boolean, vector, rgba, shader, string].find? (·.name == name)).getD other

/-- Whether the socket carries a closure rather than data. -/
def isShader (t : SocketType) : Bool := t == shader

end SocketType

/-- An input of a node. -/
structure Input where
  /-- The type of its socket. -/
  type : SocketType
  /-- The links that feed it. -/
  links : List Link
  /-- The literal that counts when it is not linked. -/
  value : Option Literal
  deriving DecidableEq

namespace Input

/-- Whether a link feeds the input. -/
def isLinked (i : Input) : Bool := !i.links.isEmpty

/-- Only the type of an input must be given. -/
def ofJson? (j : Json) : Option Input := do
  let f ← j.fields? ["type", "links", "value"]
  return {
    type := SocketType.ofName (← f.required "type" Json.toCase?)
    links := ← f.defaulted "links" (Json.toList? Link.ofJson?) []
    value := ← f.defaulted "value" (Json.toNullable? Literal.ofJson?) none }

end Input

end Candela.Graph
