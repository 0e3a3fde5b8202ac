import Candela.Json.Decode

/-!
# Records described by their fields

A record type whose every field has a default is described once, by the list of its fields, and read
and written through that description. A `Field` knows its names, how a document's value is put into
a record, and what is written for it.
-/

namespace Candela.Json

/-- One field of the records of type `σ`. -/
structure Field (σ : Type) where
  /-- The name, and the other names that are accepted. -/
  name : FieldName
  /-- Puts the value of a document into a record, unless it does not fit. -/
  read : Json → σ → Option σ
  /-- The value that is written. -/
  write : σ → Json

namespace Field

variable {σ α : Type}

/-- A field by how its values are read and written, and how a record holds it. -/
def of (name : FieldName) (read : Json → Option α) (write : α → Json) (get : σ → α)
    (set : α → σ → σ) : Field σ :=
  ⟨name, fun j s => (read j).map (set · s), fun s => write (get s)⟩

/-- A text field. -/
def text (name : FieldName) : (σ → String) → (String → σ → σ) → Field σ :=
  of name toString? .string

/-- A truth value. -/
def flag (name : FieldName) : (σ → Bool) → (Bool → σ → σ) → Field σ :=
  of name toBool? .bool

/-- A single-precision number. -/
def single (name : FieldName) : (σ → Float32) → (Float32 → σ → σ) → Field σ :=
  of name toSingle? ofSingle

/-- A 32-bit word. -/
def word (name : FieldName) : (σ → UInt32) → (UInt32 → σ → σ) → Field σ :=
  of name toWord? fun n => ofNat n.toNat

end Field

/-- Puts each field that is given into a record. -/
def readFields {σ : Type} (given : Fields) : List (Field σ) → σ → Option σ
  | [], s => some s
  | f :: rest, s =>
    match given.find? f.name.name with
    | none => readFields given rest s
    | some j => f.read j s >>= readFields given rest

/-- The record that a document gives, the fields that it leaves out taken from `absent`. -/
def readRecord {σ : Type} (fields : List (Field σ)) (absent : σ) (j : Json) : Option σ := do
  readFields (← j.fields? (fields.map (·.name))) fields absent

/-- The members that write a record. -/
def writeRecord {σ : Type} (fields : List (Field σ)) (s : σ) : List (String × Json) :=
  fields.map fun f => (f.name.name, f.write s)

end Candela.Json
