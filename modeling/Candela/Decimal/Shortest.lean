import Candela.Binary.Format
import Candela.Power

/-!
# The fewest decimal digits that read back

A binary number is written with the fewest decimal digits that are still nearer to it than to any
other number of its format; of several candidates with that many digits the nearest one is taken.
`Cell` is the interval of reals that round to the number, and the candidates of a grid
`10 ^ k` are the number's two neighbours on it: if any point of the grid lies in the cell, one of
these does.
-/

namespace Candela.Decimal

/-- Where a number exactly between two candidates goes. -/
inductive Tie where
  | toEven
  | up
  deriving DecidableEq

/-- The reals that round to `significand · 2 ^ exponent`: they reach half a step up, and half a step
down unless the step below is only half as wide. The ends belong to it iff the significand is
even. -/
structure Cell where
  /-- The number's significand. -/
  significand : Nat
  /-- The exponent of the number's last place. -/
  exponent : Int
  /-- Whether the next number below is only half a step away. -/
  narrowBelow : Bool

namespace Cell

/-- The cell of a positive finite number of a format. -/
def ofFinite (f : Binary.Format) (significand : Nat) (exponent : Int) : Cell :=
  ⟨significand, exponent, significand == 2 ^ f.fractionBits && f.minExponent < exponent⟩

/-- The lower end in quarters of a step. -/
def lower (c : Cell) : Nat := if c.narrowBelow then 4 * c.significand - 1 else 4 * c.significand - 2

/-- The upper end in quarters of a step. -/
def upper (c : Cell) : Nat := 4 * c.significand + 2

/-- A quarter of a step and a unit of the grid `10 ^ k` as multiples of a common unit. -/
def units (c : Cell) (k : Int) : Nat × Nat :=
  (2 ^ (c.exponent - 2).toNat * 10 ^ (-k).toNat, 2 ^ (2 - c.exponent).toNat * 10 ^ k.toNat)

/-- Whether `d · 10 ^ k` lies in the cell. -/
def holds (c : Cell) (k : Int) (d : Nat) : Bool :=
  let (quarter, unit) := c.units k
  if c.significand % 2 = 0 then
    c.lower * quarter ≤ d * unit && d * unit ≤ c.upper * quarter
  else c.lower * quarter < d * unit && d * unit < c.upper * quarter

/-- The last multiple of `10 ^ k` that is not above the number. -/
def below (c : Cell) (k : Int) : Nat :=
  let (quarter, unit) := c.units k
  4 * c.significand * quarter / unit

/-- The neighbour on the grid `10 ^ k` that is written, if one of the two lies in the cell. -/
def pick? (c : Cell) (tie : Tie) (k : Int) : Option Nat :=
  let (quarter, unit) := c.units k
  let d := c.below k
  match c.holds k d, c.holds k (d + 1) with
  | false, false => none
  | true, false => some d
  | false, true => some (d + 1)
  | true, true =>
    match compare (2 * (4 * c.significand * quarter - d * unit)) unit, tie with
    | .lt, _ => some d
    | .gt, _ => some (d + 1)
    | .eq, .up => some (d + 1)
    | .eq, .toEven => some (d + d % 2)

/-- The decimal exponent of the number's first digit. The estimate from the binary exponent is at
most one off. -/
def leading (c : Cell) : Int :=
  let guess := ((c.significand.log2 : Int) + c.exponent) * 30103 / 100000
  if 0 < c.below (guess + 1) then guess + 1
  else if 0 < c.below guess then guess
  else guess - 1

/-- The first grid from `10 ^ k` downwards with a candidate in the cell. -/
def search (c : Cell) (tie : Tie) : Nat → Int → Nat × Int
  | 0, k => (c.below k, k)
  | n + 1, k =>
    match c.pick? tie k with
    | some d => (d, k)
    | none => search c tie n (k - 1)

end Cell

/-- A positive decimal number `0.d₁d₂… · 10 ^ point`, by its digits from the first to the last one
that is not zero. -/
structure Digits where
  /-- The digits. -/
  digits : List Char
  /-- How many digits stand before the point. -/
  point : Int

/-- The digits of `d · 10 ^ k`, without the zeros at the end. -/
def Digits.ofScaled (d : Nat) (k : Int) : Digits :=
  let all := Nat.toDigits 10 d
  ⟨(all.reverse.dropWhile (· == '0')).reverse, all.length + k⟩

/-- The digits of a positive finite number of a format: seventeen suffice for every format here. -/
def shortest (tie : Tie) (f : Binary.Format) (significand : Nat) (exponent : Int) : Digits :=
  let c := Cell.ofFinite f significand exponent
  let (d, k) := c.search tie 17 c.leading
  Digits.ofScaled d k

end Candela.Decimal
