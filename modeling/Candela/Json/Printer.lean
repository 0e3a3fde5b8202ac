import Candela.Json.Basic
import Candela.Decimal.Layout

/-!
# Writing JSON text

`Json.print` writes a document without blanks and `Json.pretty` with one item or member on a line,
indented by two blanks; numbers are in a given layout. What is unreadable is written as `null`.
-/

namespace Candela.Json

/-- A hexadecimal digit. -/
def hexChar (n : Nat) : Char := if n < 10 then Char.ofNat (48 + n) else Char.ofNat (87 + n)

/-- The text of a character inside a string. -/
def escapeChar (c : Char) : List Char :=
  if c = '"' then ['\\', '"']
  else if c = '\\' then ['\\', '\\']
  else if c = '\n' then ['\\', 'n']
  else if c = '\r' then ['\\', 'r']
  else if c = '\t' then ['\\', 't']
  else if c.toNat < 0x20 then
    ['\\', 'u', '0', '0', hexChar (c.toNat / 16), hexChar (c.toNat % 16)]
  else [c]

/-- A string in quotes. -/
def quote (s : String) : String := String.ofList ('"' :: s.toList.flatMap escapeChar ++ ['"'])

/-- The text of a number. -/
def Number.print (l : Decimal.Layout) : Number → String
  | .integer n => toString n
  | .real x => l.double x
  | .single x => l.single x

mutual

/-- The text of a document, its numbers in the given layout. -/
def print (l : Decimal.Layout) : Json → String
  | .null | .unreadable => "null"
  | .bool true => "true"
  | .bool false => "false"
  | .number n => n.print l
  | .string s => quote s
  | .array items => "[" ++ ",".intercalate (printItems l items) ++ "]"
  | .object members => "\x7b" ++ ",".intercalate (printMembers l members) ++ "\x7d"

/-- The texts of the items of an array. -/
def printItems (l : Decimal.Layout) : List Json → List String
  | [] => []
  | item :: rest => print l item :: printItems l rest

/-- The texts of the members of an object. -/
def printMembers (l : Decimal.Layout) : List (String × Json) → List String
  | [] => []
  | (name, v) :: rest => (quote name ++ ":" ++ print l v) :: printMembers l rest

end

/-- A line break before something indented by so many steps. -/
def newline (depth : Nat) : String := "\n" ++ String.join (List.replicate depth "  ")

/-- Parts on lines of their own, between brackets that are indented by so many steps. -/
def enclose (depth : Nat) (opening closing : String) (parts : List String) : String :=
  if parts.isEmpty then opening ++ closing
  else
    opening ++ newline (depth + 1) ++ ("," ++ newline (depth + 1)).intercalate parts ++
      newline depth ++ closing

mutual

/-- The text of a document on several lines, indented by so many steps. -/
def prettyAt (l : Decimal.Layout) (depth : Nat) : Json → String
  | .array items => enclose depth "[" "]" (prettyItems l (depth + 1) items)
  | .object members => enclose depth "\x7b" "\x7d" (prettyMembers l (depth + 1) members)
  | other => print l other

/-- The texts of the items of an array, on lines of their own. -/
def prettyItems (l : Decimal.Layout) (depth : Nat) : List Json → List String
  | [] => []
  | item :: rest => prettyAt l depth item :: prettyItems l depth rest

/-- The texts of the members of an object, on lines of their own. -/
def prettyMembers (l : Decimal.Layout) (depth : Nat) : List (String × Json) → List String
  | [] => []
  | (name, v) :: rest => (quote name ++ ": " ++ prettyAt l depth v) :: prettyMembers l depth rest

end

/-- The text of a document on several lines. -/
def pretty (l : Decimal.Layout) (j : Json) : String := prettyAt l 0 j

end Candela.Json
