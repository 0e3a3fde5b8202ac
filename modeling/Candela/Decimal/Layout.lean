import Candela.Decimal.Shortest

/-!
# Layouts of decimal numbers

How the digits of a number are set out as text. A `Layout` says from where to where a number is
written positionally and how an exponent is spelt; there is always a digit after a point, and a
number in exponent form has a point only if it has more than one digit.
-/

namespace Candela.Decimal

/-- The choices of a written form. -/
structure Layout where
  /-- The least decimal exponent of a first digit that is written positionally. -/
  positionalFrom : Int
  /-- The first decimal exponent of a first digit above it that is not. -/
  positionalBelow : Int
  /-- Whether an exponent that is not negative has a plus sign. -/
  plusSign : Bool
  /-- Where a number between two candidates goes. -/
  tie : Tie
  /-- Whether a negative zero keeps its sign. -/
  signedZero : Bool
  /-- The text of positive infinity. -/
  infinity : String
  /-- The text of negative infinity. -/
  negativeInfinity : String
  /-- The text of what is no number. -/
  nan : String

/-- The text of a positive number in positional notation. -/
def positional (d : Digits) : List Char :=
  if d.point ≤ 0 then '0' :: '.' :: List.replicate (-d.point).toNat '0' ++ d.digits
  else
    let whole := d.point.toNat
    let fraction := d.digits.drop whole
    d.digits.take whole ++ List.replicate (whole - d.digits.length) '0' ++
      '.' :: (if fraction.isEmpty then ['0'] else fraction)

/-- The text of a positive number with an exponent. -/
def scientific (plusSign : Bool) (d : Digits) : List Char :=
  let mantissa := match d.digits with
    | first :: second :: rest => first :: '.' :: second :: rest
    | short => short
  let e := d.point - 1
  let sign := if e < 0 then ['-'] else if plusSign then ['+'] else []
  mantissa ++ 'e' :: sign ++ Nat.toDigits 10 e.natAbs

namespace Layout

/-- The text of a positive number. -/
def magnitude (l : Layout) (d : Digits) : List Char :=
  let leading := d.point - 1
  if l.positionalFrom ≤ leading ∧ leading < l.positionalBelow then positional d
  else scientific l.plusSign d

/-- The text of what a bit pattern stands for. -/
def text (l : Layout) (f : Binary.Format) : Binary.Content → String
  | .finite negative m e =>
    if m = 0 then if negative && l.signedZero then "-0.0" else "0.0"
    else
      let digits := l.magnitude (shortest l.tie f m e)
      String.ofList (if negative then '-' :: digits else digits)
  | .infinite negative => if negative then l.negativeInfinity else l.infinity
  | .nan => l.nan

/-- The text of a single-precision number. -/
def single (l : Layout) (x : Float32) : String := l.text Binary.single (Binary.ofSingle x)

/-- The text of a double-precision number. -/
def double (l : Layout) (x : Float) : String := l.text Binary.double (Binary.ofDouble x)

end Layout

/-- Numbers of a report: positional from `1e-4` up to below `1e16`, a number between two candidates
goes up, a zero has no sign, and what is not finite is a JSON string. -/
def report : Layout where
  positionalFrom := -4
  positionalBelow := 16
  plusSign := false
  tie := .up
  signedZero := false
  infinity := "\"inf\""
  negativeInfinity := "\"-inf\""
  nan := "\"NaN\""

end Candela.Decimal
