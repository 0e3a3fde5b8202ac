import Candela.Geometry.Vector
import Candela.Json.Record
import Candela.Scene.Basic
import Candela.Single

/-!
# Cameras

A pinhole camera at a viewpoint, which looks against the third axis of its transform.
-/

namespace Candela

namespace Scene.Viewpoint

/-- A pair of numbers as a document. -/
def pairToJson (p : Float32 × Float32) : Json := Json.ofSingles [p.1, p.2]

/-- The fields of a viewpoint that is kept by itself. -/
def fields : List (Json.Field Viewpoint) :=
  [.of "transform" Json.toMat4? (fun m => Json.ofSingles m.toList) (·.transform)
      fun v s => { s with transform := v },
    .single "near_clip" (·.nearClip) fun v s => { s with nearClip := v },
    .single "far_clip" (·.farClip) fun v s => { s with farClip := v },
    .of "focal_length" (Json.toNullable? Json.toSingle?) (fun v => (v.map Json.ofSingle).getD .null)
      (·.focalLength) fun v s => { s with focalLength := v },
    .of "film" Json.toPair? pairToJson (·.film) fun v s => { s with film := v },
    .of "shift" Json.toPair? pairToJson (·.shift) fun v s => { s with shift := v }]

/-- Reads a viewpoint that is kept by itself. -/
def ofJson? : Json → Option Viewpoint := Json.readRecord fields {}

end Scene.Viewpoint

/-- A camera. -/
structure Camera where
  /-- From the camera's space to the world. -/
  transform : Mat4 Float32 := .identity
  near : Float32 := 0.1
  far : Float32 := 100
  /-- The focal length over half the width of the film. -/
  focal : Float32 := 2.5
  shift : Float32 × Float32 := (0, 0)

namespace Camera

/-- The focal length of a viewpoint that has none. -/
def standardFocalLength : Float32 := 50

/-- The camera of a viewpoint. -/
def ofViewpoint (v : Scene.Viewpoint) : Camera where
  transform := v.transform
  near := v.nearClip
  far := v.farClip
  focal := v.focalLength.getD standardFocalLength / Single.max (v.film.1 * 0.5) Single.epsilon
  shift := v.shift

/-- How far from the eye a ray in some direction begins and how far it reaches from there: it begins
where it crosses the near plane. -/
def rayInterval (c : Camera) (direction : Vec3 Float32) : Float32 × Float32 :=
  let start := c.near / Single.max (-direction.z) 1e-6
  (start, Single.max (c.far - start) 0)

/-- The camera moved by an interaction, whose matrix is given with rows and columns exchanged. -/
def move (c : Camera) (m : Mat4 Float32) : Camera :=
  { c with transform := c.transform.multiply m.transpose }

end Camera

end Candela
