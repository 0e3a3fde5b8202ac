import Candela.Json.Basic
import Candela.Power

/-!
# Reading JSON text

`Json.parse?` accepts exactly strict JSON: no comments, no trailing commas, no leading zeros, no
control characters in strings, and nothing but blanks around the value. A number is read as a
64-bit whole number if it is one; otherwise its leading digits, as many as fit 64 bits, are scaled
by a power of ten in double precision, which rounds twice and is how `Number.scaled?` is defined.
-/

namespace Candela.Json

/-! ## Numbers -/

/-- A power of ten in double precision. -/
def powerOfTen (n : Nat) : Float := Float.ofScientific 1 false n

/-- Divides by a power of ten, in steps that double precision can hold. -/
def scaleDown (x : Float) (n : Nat) : Float :=
  if n ≤ 308 then x / powerOfTen n
  else if x == 0 then x
  else scaleDown (x / powerOfTen 308) (n - 308)
termination_by n

/-- A 64-bit significand times a power of ten, in double precision; nothing if that is infinite. -/
def Number.scaled? (negative : Bool) (significand : Nat) (exponent : Int) : Option Number :=
  let x := significand.toUInt64.toFloat
  let signed (y : Float) : Number := .real (if negative then -y else y)
  if exponent < 0 then some (signed (scaleDown x (-exponent).toNat))
  else if significand = 0 then some (signed x)
  else if 308 < exponent then none
  else
    let y := x * powerOfTen exponent.toNat
    if y.isInf then none else some (signed y)

/-- The value of a decimal digit. -/
def digitValue (c : Char) : Nat := c.toNat - 48

/-- Appends digits to a significand as long as it fits 64 bits; the rest is returned. -/
def appendDigits (significand : Nat) : List Char → Nat × List Char
  | [] => (significand, [])
  | c :: rest =>
    let next := significand * 10 + digitValue c
    if 2 ^ 64 ≤ next then (significand, c :: rest) else appendDigits next rest

/-- The number written by whole digits, fraction digits and an exponent, the last two if they are
there. Whole digits that do not fit the significand count as zeros, fraction digits as nothing. -/
def Number.ofParts? (negative : Bool) (whole : List Char) (fraction : Option (List Char))
    (exponent : Option Int) : Option Number :=
  let (s, dropped) := appendDigits 0 whole
  match fraction, exponent with
  | none, none =>
    if dropped ≠ [] then scaled? negative s dropped.length
    else if !negative then some (.integer s)
    else if s = 0 ∨ 2 ^ 63 < s then some (.real (-s.toUInt64.toFloat))
    else some (.integer (-s))
  | fraction, exponent =>
    let digits := fraction.getD []
    let (s, rest) := appendDigits s digits
    scaled? negative s (dropped.length - (digits.length - rest.length : Nat) + exponent.getD 0)

/-- Splits off the digits at the front. -/
def spanDigits (cs : List Char) : List Char × List Char := cs.span Char.isDigit

/-- Splits off at least one digit. -/
def digits? (cs : List Char) : Option (List Char × List Char) :=
  match spanDigits cs with
  | ([], _) => none
  | split => some split

/-- Whole digits: a zero stands alone. -/
def wholeDigits? (cs : List Char) : Option (List Char × List Char) :=
  match digits? cs with
  | some ('0' :: _ :: _, _) => none
  | split => split

/-- A fraction, if a point follows. -/
def fraction? : List Char → Option (Option (List Char) × List Char)
  | '.' :: cs => (digits? cs).map fun (d, rest) => (some d, rest)
  | cs => some (none, cs)

/-- The whole number that digits write. -/
def naturalOf (digits : List Char) : Nat := digits.foldl (fun n c => n * 10 + digitValue c) 0

/-- The digits of an exponent after its sign. -/
def exponentDigits? (negative : Bool) (cs : List Char) : Option (Option Int × List Char) :=
  (digits? cs).map fun (d, rest) =>
    (some (if negative then -(naturalOf d : Int) else naturalOf d), rest)

/-- An exponent, if its mark follows. -/
def exponent? : List Char → Option (Option Int × List Char)
  | c :: cs =>
    if c = 'e' ∨ c = 'E' then
      match cs with
      | '-' :: cs => exponentDigits? true cs
      | '+' :: cs => exponentDigits? false cs
      | cs => exponentDigits? false cs
    else some (none, c :: cs)
  | [] => some (none, [])

/-- A number after its sign. -/
def magnitude? (negative : Bool) (cs : List Char) : Option (Json × List Char) := do
  let (whole, cs) ← wholeDigits? cs
  let (fraction, cs) ← fraction? cs
  let (exponent, cs) ← exponent? cs
  let value := match Number.ofParts? negative whole fraction exponent with
    | some n => Json.number n
    | none => .unreadable
  return (value, cs)

/-! ## Strings -/

/-- The value of a hexadecimal digit. -/
def hexDigit? (c : Char) : Option Nat :=
  if c.isDigit then some (c.toNat - 48)
  else if 'a' ≤ c ∧ c ≤ 'f' then some (c.toNat - 87)
  else if 'A' ≤ c ∧ c ≤ 'F' then some (c.toNat - 55)
  else none

/-- Four hexadecimal digits. -/
def hexUnit? : List Char → Option (Nat × List Char)
  | a :: b :: c :: d :: rest => do
    let high := (← hexDigit? a) * 16 + (← hexDigit? b)
    return ((high * 16 + (← hexDigit? c)) * 16 + (← hexDigit? d), rest)
  | _ => none

/-- The character a letter after a backslash stands for, the numbered ones apart. -/
def escaped? : Char → Option Char
  | '"' => some '"'
  | '\\' => some '\\'
  | '/' => some '/'
  | 'b' => some '\x08'
  | 'f' => some '\x0c'
  | 'n' => some '\n'
  | 'r' => some '\r'
  | 't' => some '\t'
  | _ => none

/-- A character given by its code unit, which for a character outside the first plane is the first
of two; nothing for half a pair. -/
def unitChar (u : Nat) (cs : List Char) : Option Char × List Char :=
  if u < 0xD800 ∨ 0xDFFF < u then (some (Char.ofNat u), cs)
  else if 0xDC00 ≤ u then (none, cs)
  else
    match cs with
    | '\\' :: 'u' :: rest =>
      match hexUnit? rest with
      | some (v, rest) =>
        if 0xDC00 ≤ v ∧ v ≤ 0xDFFF then
          (some (Char.ofNat (0x10000 + (u - 0xD800) * 0x400 + (v - 0xDC00))), rest)
        else (none, cs)
      | none => (none, cs)
    | _ => (none, cs)

/-- The characters up to the closing quote. `whole` tells whether every one had a value so far. The
fuel is at least the length of the text. -/
def stringRest? : Nat → Bool → List Char → List Char → Option (Option String × List Char)
  | 0, _, _, _ => none
  | _ + 1, _, _, [] => none
  | fuel + 1, whole, seen, c :: cs =>
    if c = '"' then some (if whole then some (String.ofList seen.reverse) else none, cs)
    else if c = '\\' then
      match cs with
      | 'u' :: cs =>
        match hexUnit? cs with
        | none => none
        | some (u, cs) =>
          match unitChar u cs with
          | (some c, cs) => stringRest? fuel whole (c :: seen) cs
          | (none, cs) => stringRest? fuel false seen cs
      | e :: cs =>
        match escaped? e with
        | some c => stringRest? fuel whole (c :: seen) cs
        | none => none
      | [] => none
    else if c.toNat < 0x20 then none
    else stringRest? fuel whole (c :: seen) cs

/-- The characters of a string after its opening quote; nothing inside if one has no value. -/
def string? (cs : List Char) : Option (Option String × List Char) :=
  stringRest? (cs.length + 1) true [] cs

/-! ## Values -/

/-- A blank of JSON text. -/
def isBlank (c : Char) : Bool := c == ' ' || c == '\n' || c == '\r' || c == '\t'

/-- The text after its leading blanks. -/
def skipBlanks (cs : List Char) : List Char := cs.dropWhile isBlank

/-- The rest of the text after a word. -/
def word? (w : List Char) (cs : List Char) : Option (List Char) :=
  if w.isPrefixOf cs then some (cs.drop w.length) else none

/-- A container at some depth, unreadable below the deepest level. -/
def container (depth : Nat) (value : Json) : Json := if maxDepth < depth then .unreadable else value

mutual

/-- A value after its leading blanks. `depth` counts the containers around it. The fuel bounds the
number of characters that are still read. -/
def value? : Nat → Nat → List Char → Option (Json × List Char)
  | 0, _, _ => none
  | fuel + 1, depth, cs =>
    match skipBlanks cs with
    | [] => none
    | '"' :: cs =>
      match string? cs with
      | some (some s, cs) => some (.string s, cs)
      | some (none, cs) => some (.unreadable, cs)
      | none => none
    | '[' :: cs =>
      match skipBlanks cs with
      | ']' :: cs => some (container (depth + 1) (.array []), cs)
      | cs => (items? fuel (depth + 1) [] cs).map fun (v, cs) => (container (depth + 1) v, cs)
    | '\x7b' :: cs =>
      match skipBlanks cs with
      | '\x7d' :: cs => some (container (depth + 1) (.object []), cs)
      | cs => (members? fuel (depth + 1) (some []) cs).map fun (v, cs) =>
        (container (depth + 1) v, cs)
    | 'n' :: cs => (word? ['u', 'l', 'l'] cs).map fun cs => (.null, cs)
    | 't' :: cs => (word? ['r', 'u', 'e'] cs).map fun cs => (.bool true, cs)
    | 'f' :: cs => (word? ['a', 'l', 's', 'e'] cs).map fun cs => (.bool false, cs)
    | '-' :: cs => magnitude? true cs
    | cs => magnitude? false cs

/-- The items of an array up to its end, put in front of those seen. -/
def items? : Nat → Nat → List Json → List Char → Option (Json × List Char)
  | 0, _, _, _ => none
  | fuel + 1, depth, seen, cs =>
    match value? fuel depth cs with
    | none => none
    | some (v, cs) =>
      match skipBlanks cs with
      | ',' :: cs => items? fuel depth (v :: seen) cs
      | ']' :: cs => some (.array (v :: seen).reverse, cs)
      | _ => none

/-- The members of an object up to its end, put in front of those seen; an object is unreadable if
one of its names is. -/
def members? : Nat → Nat → Option (List (String × Json)) → List Char →
    Option (Json × List Char)
  | 0, _, _, _ => none
  | fuel + 1, depth, seen, cs =>
    match skipBlanks cs with
    | '"' :: cs =>
      match string? cs with
      | none => none
      | some (name, cs) =>
        match skipBlanks cs with
        | ':' :: cs =>
          match value? fuel depth cs with
          | none => none
          | some (v, cs) =>
            let seen := match seen, name with
              | some seen, some name => some ((name, v) :: seen)
              | _, _ => none
            match skipBlanks cs with
            | ',' :: cs => members? fuel depth seen cs
            | '\x7d' :: cs =>
              some (match seen with
                | some seen => .object seen.reverse
                | none => .unreadable, cs)
            | _ => none
        | _ => none
    | _ => none

end

/-- The document that a text is. -/
def parse? (text : String) : Option Json :=
  let cs := text.toList
  match value? (2 * cs.length + 2) 0 cs with
  | some (v, cs) => if skipBlanks cs = [] then some v else none
  | none => none

end Candela.Json
