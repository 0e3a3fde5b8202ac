import Candela.Power

/-!
# Binary floating-point formats

The interchange formats the library reads and writes: double and single precision for numbers,
half precision for texels. A bit pattern has a `Content`, and `Format.nearest` is the pattern of
the number nearest to a ratio, a tie going to the even significand. Widening, narrowing and
reading decimal text are all this one rounding.
-/

namespace Candela.Binary

/-- A format with a sign bit, `exponentBits` bits of exponent and `fractionBits` bits of
fraction. -/
structure Format where
  /-- Width of the fraction field. -/
  fractionBits : Nat
  /-- Width of the exponent field. -/
  exponentBits : Nat

/-- Half precision, the format of texels. -/
def half : Format := ⟨10, 5⟩

/-- Single precision, the format of everything that is computed. -/
def single : Format := ⟨23, 8⟩

/-- Double precision, the format in which decimal text is first read. -/
def double : Format := ⟨52, 11⟩

/-- What a bit pattern stands for. A finite number is `± significand · 2 ^ exponent`. -/
inductive Content where
  | finite (negative : Bool) (significand : Nat) (exponent : Int)
  | infinite (negative : Bool)
  | nan
  deriving DecidableEq

namespace Format

/-- The exponent of the last place of the smallest numbers. -/
def minExponent (f : Format) : Int :=
  2 - (2 ^ (f.exponentBits - 1) : Nat) - f.fractionBits

/-- The pattern of positive infinity. -/
def infinityBits (f : Format) : Nat := (2 ^ f.exponentBits - 1) * 2 ^ f.fractionBits

/-- The sign bit. -/
def signBit (f : Format) : Nat := 2 ^ (f.fractionBits + f.exponentBits)

/-- What a bit pattern stands for. -/
def content (f : Format) (bits : Nat) : Content :=
  let fraction := bits % 2 ^ f.fractionBits
  let exponent := bits / 2 ^ f.fractionBits % 2 ^ f.exponentBits
  let negative := bits / f.signBit % 2 == 1
  if exponent = 2 ^ f.exponentBits - 1 then
    if fraction = 0 then .infinite negative else .nan
  else if exponent = 0 then .finite negative fraction f.minExponent
  else .finite negative (fraction + 2 ^ f.fractionBits) (f.minExponent + exponent - 1)

/-- The whole part of the binary logarithm of a positive ratio. -/
def floorLog2 (num den : Nat) : Int :=
  let guess : Int := (num.log2 : Int) - den.log2
  if den * 2 ^ guess.toNat ≤ num * 2 ^ (-guess).toNat then guess else guess - 1

/-- A quotient rounded to the nearest whole number, a half going to the even neighbour. -/
def divNearestEven (num den : Nat) : Nat :=
  let whole := num / den
  let rest := num % den
  if 2 * rest < den then whole
  else if 2 * rest = den then whole + whole % 2
  else whole + 1

/-- The pattern of the number nearest to `num / den`, infinity where that is out of range. The
significand is added to the exponent field rather than put beside it, so that one that is rounded
up to the next power of two carries into the exponent. -/
def nearest (f : Format) (num den : Nat) : Nat :=
  if num = 0 then 0
  else
    let last := max (floorLog2 num den - f.fractionBits) f.minExponent
    let significand := divNearestEven (num * 2 ^ (-last).toNat) (den * 2 ^ last.toNat)
    min ((last - f.minExponent).toNat * 2 ^ f.fractionBits + significand) f.infinityBits

/-- The pattern with a sign put to it. -/
def withSign (f : Format) (negative : Bool) (bits : Nat) : Nat :=
  if negative then f.signBit + bits else bits

/-- The pattern nearest to what a pattern of any format stands for. -/
def encode (f : Format) : Content → Nat
  | .finite negative m e => f.withSign negative (f.nearest (m * 2 ^ e.toNat) (2 ^ (-e).toNat))
  | .infinite negative => f.withSign negative f.infinityBits
  | .nan => f.infinityBits + 2 ^ (f.fractionBits - 1)

/-- The pattern nearest to `digits · 10 ^ exponent`. A number whose leading digit is beyond every
format's range is decided without the power. -/
def nearestDecimal (f : Format) (digits : Nat) (exponent : Int) : Nat :=
  if digits = 0 then 0
  else
    let leading : Int := exponent + (Nat.toDigits 10 digits).length
    if leading > 400 then f.infinityBits
    else if leading < -400 then 0
    else f.nearest (digits * 10 ^ exponent.toNat) (10 ^ (-exponent).toNat)

end Format

/-! ## Words and numbers -/

/-- What a single-precision number is. -/
def ofSingle (x : Float32) : Content := single.content x.toBits.toNat

/-- What a double-precision number is. -/
def ofDouble (x : Float) : Content := double.content x.toBits.toNat

/-- The single-precision number nearest to some content. -/
def toSingle (c : Content) : Float32 := Float32.ofBits (single.encode c).toUInt32

/-- The half-precision pattern nearest to a single-precision number. -/
def halfOfSingle (x : Float32) : UInt16 := (half.encode (ofSingle x)).toUInt16

/-- The single-precision number a half-precision pattern stands for. -/
def singleOfHalf (bits : UInt16) : Float32 := toSingle (half.content bits.toNat)

/-- A double-precision number rounded to single precision. -/
def singleOfDouble (x : Float) : Float32 := toSingle (ofDouble x)

end Candela.Binary
