import Candela.Geometry.Vector

/-!
# Triangles

Where a ray meets a triangle.
-/

namespace Candela

/-- Three corners. -/
structure Triangle where
  a : Vec3 Float32
  b : Vec3 Float32
  c : Vec3 Float32

/-- Where a ray meets a triangle: how far away, and which parts of the second and the third corner
the point has. -/
structure Triangle.Hit where
  distance : Float32
  u : Float32
  v : Float32

/-- The corners. -/
def Triangle.corners (t : Triangle) : List (Vec3 Float32) := [t.a, t.b, t.c]

/-- The point in front of the ray's origin at which it meets the triangle, from either side. A
triangle that is seen edge-on is missed. -/
def Triangle.hit? (t : Triangle) (origin direction : Vec3 Float32) : Option Triangle.Hit :=
  let e1 := t.b - t.a
  let e2 := t.c - t.a
  let p := direction.cross e2
  let det := e1.dot p
  if det.abs < 1e-12 then none
  else
    let r := 1 / det
    let s := origin - t.a
    let u := s.dot p * r
    if !(0 ≤ u && u ≤ 1) then none
    else
      let q := s.cross e1
      let v := direction.dot q * r
      if v < 0 || 1 < u + v then none
      else
        let distance := e2.dot q * r
        if 1e-6 < distance then some ⟨distance, u, v⟩ else none

end Candela
