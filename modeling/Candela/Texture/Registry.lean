import Candela.Error
import Candela.Keyed
import Candela.Sky.Model
import Candela.Text.Path

/-!
# Texture slots

While graphs are compiled, only the slots of their textures are needed. A `Registry` hands out slots
by the identity of the source: the first source gets slot zero, a source that is known keeps its
slot, and there are at most sixteen. Its texels are produced afterwards, in slot order.
-/

namespace Candela.Texture

/-- Where a texture comes from. -/
inductive Source where
  /-- An image file. -/
  | file (path : String)
  /-- A computed sky. -/
  | sky (model : Sky.Model)
  deriving DecidableEq

/-- The identity of a source. -/
def Source.key : Source → String
  | file path => "file:" ++ path
  | sky model => "sky:" ++ model.describe

/-- How many textures shaders can reach. -/
def maxSlots : Nat := 16

/-- The sources that have slots. -/
structure Registry where
  /-- The sources, in slot order. -/
  sources : List Source
  /-- The slot of every source, by its identity. -/
  slots : Keyed Nat

namespace Registry

/-- No source has a slot. -/
def empty : Registry := ⟨[], .empty⟩

/-- How many slots are in use. -/
def size (r : Registry) : Nat := r.sources.length

/-- The error when all slots are in use. -/
def full : Error := .other ("scene references more than " ++ toString maxSlots ++ " textures")

/-- The slot of a source, the next one if it is new. -/
def register (r : Registry) (source : Source) : Except Error (Nat × Registry) :=
  match r.slots.get? source.key with
  | some slot => .ok (slot, r)
  | none =>
    if maxSlots ≤ r.size then .error full
    else .ok (r.size, ⟨r.sources ++ [source], r.slots.insert source.key r.size⟩)

/-- Forgets the sources from some slot on. -/
def truncate (r : Registry) (size : Nat) : Registry :=
  ⟨r.sources.take size,
    (r.sources.drop size).foldl (fun slots source => slots.erase source.key) r.slots⟩

/-- The texels of a source. An image that cannot be loaded and one with a side longer than
`maxDimension` are replaced by the placeholder. -/
def loadSource (load : String → Option Data) (maxDimension : Nat) (source : Source) : Data :=
  let data := match source with
    | .file path => (load path).getD .placeholder
    | .sky model => model.image
  if maxDimension < data.width || maxDimension < data.height then .placeholder else data

/-- The texels of every source, in slot order. -/
def loadAll (r : Registry) (load : String → Option Data) (maxDimension : Nat) : List Data :=
  r.sources.map (loadSource load maxDimension)

end Registry

/-! ## Image files -/

/-- The file that an exporter's path means: two slashes stand for the scene's directory, in which
relative paths are looked up as well. -/
def resolvePath (base path : String) : String :=
  match path.toList with
  | '/' :: '/' :: relative => Text.joinPath base (String.ofList relative)
  | _ => Text.joinPath base path

end Candela.Texture
