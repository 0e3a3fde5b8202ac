import Candela.Binary.Format
import Candela.Power

/-!
# Numerals

Numbers written out as text. A count is digits with an optional plus sign and must be below a bound.
A real number is read as the nearest single-precision number: it has an optional sign, at least one
digit before or after an optional point, and an optional exponent; infinity and what is no number
have names, in which case does not matter.
-/

namespace Candela.Text

/-- The value of a list of digits after a value so far, if it has only digits. -/
def digitsFrom? (value : Nat) : List Char → Option Nat
  | [] => some value
  | c :: rest => if c.isDigit then digitsFrom? (10 * value + (c.toNat - 48)) rest else none

/-- The value of at least one digit. -/
def digits? : List Char → Option Nat
  | [] => none
  | cs => digitsFrom? 0 cs

/-- A text without the plus sign at its start. -/
def dropPlus : List Char → List Char
  | '+' :: rest => rest
  | cs => cs

/-- A count below a bound. -/
def count? (bound : Nat) (cs : List Char) : Option Nat :=
  match digits? (dropPlus cs) with
  | some n => if n < bound then some n else none
  | none => none

/-- A 32-bit word. -/
def word? (cs : List Char) : Option UInt32 := (count? (2 ^ 32) cs).map (·.toUInt32)

/-- A text split into a sign, which is kept as whether it is a minus, and the rest. -/
def splitSign : List Char → Bool × List Char
  | '-' :: rest => (true, rest)
  | cs => (false, dropPlus cs)

/-- The exponent that ends a numeral; without one it is zero. -/
def exponent? : List Char → Option Int
  | [] => some 0
  | c :: rest =>
    if c == 'e' || c == 'E' then
      let (negative, magnitude) := splitSign rest
      (digits? magnitude).map fun n => if negative then -n else n
    else none

/-- The part of a numeral from its point on: the digits after the point, and what follows them. -/
def splitFraction : List Char → List Char × List Char
  | '.' :: rest => (rest.takeWhile Char.isDigit, rest.dropWhile Char.isDigit)
  | cs => ([], cs)

/-- The bit pattern nearest to a numeral without a sign. -/
def magnitude? (cs : List Char) : Option Nat :=
  let name := cs.map Char.toLower
  if name == "inf".toList || name == "infinity".toList then some Binary.single.infinityBits
  else if name == "nan".toList then some (Binary.single.encode .nan)
  else do
    let whole := cs.takeWhile Char.isDigit
    let (fraction, rest) := splitFraction (cs.dropWhile Char.isDigit)
    let digits ← digits? (whole ++ fraction)
    let e ← exponent? rest
    return Binary.single.nearestDecimal digits (e - fraction.length)

/-- The single-precision number nearest to a numeral. -/
def single? (cs : List Char) : Option Float32 :=
  let (negative, rest) := splitSign cs
  (magnitude? rest).map fun bits => .ofBits (Binary.single.withSign negative bits).toUInt32

end Candela.Text
