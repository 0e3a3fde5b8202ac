import Candela.Binary.Format
import Candela.Geometry.Matrix
import Candela.Json.Basic
import Candela.Keyed
import Candela.Power

/-!
# Records out of JSON documents

How documents are read into the library's types. A record is an object, whose unknown members are
ignored and whose known ones must not be given twice, or an array of the fields' values in the order
in which they are declared. Every reader is an `Option`-valued function: what does not fit is
refused as a whole.
-/

namespace Candela.Json

/-- A truth value. -/
def toBool? : Json → Option Bool
  | .bool b => some b
  | _ => none

/-- A text. -/
def toString? : Json → Option String
  | .string s => some s
  | _ => none

/-- A single-precision number: a whole number is rounded once, any other is the nearest to the
double-precision number that was read. -/
def toSingle? : Json → Option Float32
  | .number (.integer n) => some (Float32.ofInt n)
  | .number (.real x) => some (Binary.singleOfDouble x)
  | .number (.single x) => some x
  | _ => none

/-- A whole number below a bound. -/
def toNatBelow? (bound : Nat) : Json → Option Nat
  | .number (.integer n) => if 0 ≤ n ∧ n < bound then some n.toNat else none
  | _ => none

/-- A 32-bit word. -/
def toWord? (j : Json) : Option UInt32 := (j.toNatBelow? (2 ^ 32)).map (·.toUInt32)

/-- A list, each item read alike. -/
def toList? {α : Type} (item : Json → Option α) : Json → Option (List α)
  | .array items => items.mapM item
  | _ => none

/-- A list of the given length. -/
def toListOf? {α : Type} (length : Nat) (item : Json → Option α) (j : Json) : Option (List α) := do
  let l ← j.toList? item
  if l.length = length then some l else none

/-- Three numbers. -/
def toVec3? (j : Json) : Option (Vec3 Float32) := do
  match ← j.toList? toSingle? with
  | [x, y, z] => some ⟨x, y, z⟩
  | _ => none

/-- Four numbers. -/
def toVec4? (j : Json) : Option (Vec4 Float32) := do
  match ← j.toList? toSingle? with
  | [x, y, z, w] => some ⟨x, y, z, w⟩
  | _ => none

/-- A matrix, given as its sixteen components column by column. -/
def toMat4? (j : Json) : Option (Mat4 Float32) := j.toList? toSingle? >>= Mat4.ofColumns?

/-- A pair of numbers. -/
def toPair? (j : Json) : Option (Float32 × Float32) := do
  match ← j.toList? toSingle? with
  | [a, b] => some (a, b)
  | _ => none

/-- A single-precision number as a document. -/
def ofSingle (x : Float32) : Json := .number (.single x)

/-- A count as a document. -/
def ofNat (n : Nat) : Json := .number (.integer n)

/-- A list of numbers as a document. -/
def ofSingles (xs : List Float32) : Json := .array (xs.map ofSingle)

/-- A map from names; the last value of a name counts, but every one must be readable. -/
def toKeyed? {α : Type} (value : Json → Option α) : Json → Option (Keyed α)
  | .object members => do
    return Keyed.ofList (← members.mapM fun (name, v) => do return (name, ← value v))
  | _ => none

/-- A value that may be `null`. -/
def toNullable? {α : Type} (value : Json → Option α) : Json → Option (Option α)
  | .null => some none
  | j => (value j).map some

/-- A case without data: its name, or an object that maps its name to `null`. -/
def toCase? : Json → Option String
  | .string s => some s
  | .object [(name, .null)] => some name
  | _ => none

/-! ## Records -/

/-- A field of a record: its name and the other names it goes by. -/
structure FieldName where
  /-- The name. -/
  name : String
  /-- Other accepted names. -/
  aliases : List String

instance : Coe String FieldName := ⟨fun name => ⟨name, []⟩⟩

/-- Whether a member's name means this field. -/
def FieldName.accepts (f : FieldName) (name : String) : Bool :=
  f.name == name || f.aliases.contains name

/-- The fields of a record that were given. -/
structure Fields where
  /-- The value of each declared field. -/
  given : List (String × Option Json)
  /-- Whether they were given by position. -/
  positional : Bool

/-- The value of a field among the members of an object: the outer option fails if there are two. -/
def uniqueMember? (f : FieldName) (members : List (String × Json)) : Option (Option Json) :=
  match members.filter fun m => f.accepts m.1 with
  | [] => some none
  | [(_, v)] => some (some v)
  | _ => none

/-- The values of the declared fields by position, as far as there are values. -/
def byPosition : List FieldName → List Json → List (String × Option Json)
  | [], _ => []
  | f :: fs, [] => (f.name, none) :: byPosition fs []
  | f :: fs, v :: vs => (f.name, some v) :: byPosition fs vs

/-- The declared fields that a document gives. -/
def fields? (declared : List FieldName) : Json → Option Fields
  | .object members => do
    return ⟨← declared.mapM fun f => do return (f.name, ← uniqueMember? f members), false⟩
  | .array items =>
    if declared.length < items.length then none else some ⟨byPosition declared items, true⟩
  | _ => none

namespace Fields

variable {α : Type}

/-- What was given for a field. -/
def find? (f : Fields) (name : String) : Option Json := (f.given.lookup name).join

/-- A field that must be there. -/
def required (f : Fields) (name : String) (read : Json → Option α) : Option α :=
  f.find? name >>= read

/-- A field with a value for its absence. -/
def defaulted (f : Fields) (name : String) (read : Json → Option α) (absent : α) : Option α :=
  match f.find? name with
  | some j => read j
  | none => some absent

/-- A field that may be `null`, and that may be left out where fields have names. -/
def nullable (f : Fields) (name : String) (read : Json → Option α) : Option (Option α) :=
  match f.find? name with
  | some j => j.toNullable? read
  | none => if f.positional then none else some none

end Fields

end Candela.Json
