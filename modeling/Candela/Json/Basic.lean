/-!
# JSON values

A document as a tree. Numbers keep apart what JSON text keeps apart: a whole number that fits 64
bits, any other number, and (only in documents that are written) a single-precision number.
Members of an object keep their order and their duplicates, because a record refuses a field that
is given twice while a map lets the last one win. `unreadable` stands for text that is well formed
but has no value: it does no harm where a reader skips it, and every reader that looks at it fails.
-/

namespace Candela

/-- A number of a document. -/
inductive Json.Number where
  /-- A whole number from `-2 ^ 63` up to below `2 ^ 64`. -/
  | integer (n : Int)
  /-- Any other number that was read. -/
  | real (x : Float)
  /-- A single-precision number to be written. -/
  | single (x : Float32)

/-- A JSON document. -/
inductive Json where
  | null
  | bool (b : Bool)
  | number (n : Json.Number)
  | string (s : String)
  | array (items : List Json)
  | object (members : List (String × Json))
  /-- Well-formed text without a value: a number out of range, a half of a surrogate pair, or a
  container nested too deeply. -/
  | unreadable
  deriving Inhabited

namespace Json

/-- How deeply arrays and objects may be nested. -/
def maxDepth : Nat := 127

/-- The members of which none follows with the same name. -/
def lastMembers : List (String × Json) → List (String × Json)
  | [] => []
  | (k, v) :: rest => if rest.any (·.1 == k) then lastMembers rest else (k, v) :: lastMembers rest

mutual

/-- The document with at most one member of each name in every object, the last one, or nothing if
a part of it is unreadable. -/
def settled? : Json → Option Json
  | .unreadable => none
  | .array items => (settledItems? items).map .array
  | .object members => (settledMembers? members).map fun m => .object (lastMembers m)
  | other => some other

/-- `settled?` of every item. -/
def settledItems? : List Json → Option (List Json)
  | [] => some []
  | item :: rest => do return (← settled? item) :: (← settledItems? rest)

/-- `settled?` of every member's value. -/
def settledMembers? : List (String × Json) → Option (List (String × Json))
  | [] => some []
  | (k, v) :: rest => do return (k, ← settled? v) :: (← settledMembers? rest)

end

end Json

end Candela
