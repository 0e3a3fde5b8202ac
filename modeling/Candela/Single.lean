/-!
# Single-precision numbers

Constants and scalar rules of the numbers that everything is computed in.
-/

namespace Candela.Single

/-- Half a turn. -/
def pi : Float32 := 3.14159265358979

/-- An angle in degrees as radians. -/
def radians (degrees : Float32) : Float32 := degrees * (pi / 180)

/-- The distance from one to the next larger number. -/
def epsilon : Float32 := 1.1920929e-7

/-- Positive infinity. -/
def infinity : Float32 := 1 / 0

/-- What is no number. -/
def nan : Float32 := 0 / 0

/-- The lesser of two numbers; the other one where one of them is no number. -/
def min (a b : Float32) : Float32 := if a.isNaN then b else if b < a then b else a

/-- The greater of two numbers; the other one where one of them is no number. -/
def max (a b : Float32) : Float32 := if a.isNaN then b else if a < b then b else a

/-- A number kept within bounds; what is no number stays so. -/
def clamp (x low high : Float32) : Float32 := if x < low then low else if high < x then high else x

end Candela.Single
