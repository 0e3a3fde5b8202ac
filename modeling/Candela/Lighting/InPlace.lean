import Candela.Environment.InPlace
import Candela.Lighting.Table

/-!
# Distributions written in place

The distributions of all instances lie in one array, which is nothing but zeros at first. Every
instance writes its own range of it, in two loops: the first one writes down the area up to each
triangle, the second one divides what has been written by the area of all. Every element that is
read or written is looked up first, and one that is not there ends the run without an answer.
-/

namespace Candela.Lighting

open Environment.InPlace (set? loop?)
open Scene (Geometry LoadedShape)

/-- A sum with the area of one more triangle, if it has one. -/
def addArea (total : Float32) : Option Float32 → Float32
  | none => total
  | some a => total + a

namespace ShapeLight

variable (l : ShapeLight) (g : Geometry) (emissive : Array Bool)

/-- Adds the area of a triangle to the sum so far, and writes down the sum. -/
def putSum? (s : LoadedShape) (i : Nat) (run : Float32 × Array Float32) :
    Option (Float32 × Array Float32) := do
  let f ← g.faces[s.info.faces.offset + i]?
  let area ← (radiatingArea g emissive l.transform.linear f).toOption
  let total := addArea run.1 area
  return (total, ← set? run.2 (l.slot.faceOffset + i) total)

/-- Divides what has been written for a triangle. -/
def putShare? (total : Float32) (i : Nat) (data : Array Float32) : Option (Array Float32) := do
  let sum ← data[l.slot.faceOffset + i]?
  set? data (l.slot.faceOffset + i) (sum / total)

/-- Writes the distribution of an instance into its range, which must be there; the answer is also
the area of all its triangles that radiate light. -/
def write? (data : Array Float32) : Option (Float32 × Array Float32) := do
  let s ← g.shapes[l.shape]?
  if l.slot.faceOffset + l.slot.faceCount ≤ data.size then
    let (total, data) ← (List.range l.slot.faceCount).foldlM
      (fun run i => l.putSum? g emissive s i run) (0, data)
    if 0 < total then return (total, ← loop? l.slot.faceCount (l.putShare? total) data)
    else return (total, data)
  else none

end ShapeLight

/-- Writes the distributions of all instances; the answer is also their areas. -/
def Draft.write? (d : Draft) (g : Geometry) (emissive : Array Bool) :
    Option (List Float32 × Array Float32) :=
  d.shapeLights.foldlM (fun (areas, data) l => do
    let (area, data) ← l.write? g emissive data
    return (areas ++ [area], data)) ([], Array.replicate d.faceTotal 0)

end Candela.Lighting
