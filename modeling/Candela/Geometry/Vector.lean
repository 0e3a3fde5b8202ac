/-!
# Vectors

Vectors of three and four components over any type of scalars: single-precision numbers when the
library runs, exact numbers where a theorem is about the geometry itself. The operations say in
which order they add, since rounded addition is not associative. Lengths and directions are in single
precision.
-/

namespace Candela

/-- Three components. -/
structure Vec3 (α : Type) where
  x : α
  y : α
  z : α
  deriving DecidableEq

/-- Four components. -/
structure Vec4 (α : Type) where
  x : α
  y : α
  z : α
  w : α
  deriving DecidableEq

namespace Vec3

variable {α β γ : Type}

instance [Inhabited α] : Inhabited (Vec3 α) := ⟨⟨default, default, default⟩⟩

/-- The same value in every component. -/
def splat (a : α) : Vec3 α := ⟨a, a, a⟩

/-- Applies a function to every component. -/
def map (f : α → β) (v : Vec3 α) : Vec3 β := ⟨f v.x, f v.y, f v.z⟩

/-- Combines two vectors component by component. -/
def zipWith (f : α → β → γ) (a : Vec3 α) (b : Vec3 β) : Vec3 γ := ⟨f a.x b.x, f a.y b.y, f a.z b.z⟩

/-- The components. -/
def toList (v : Vec3 α) : List α := [v.x, v.y, v.z]

/-- The component of an axis, counted from zero; every axis after the second is the third. -/
def axis (v : Vec3 α) : Nat → α
  | 0 => v.x
  | 1 => v.y
  | _ => v.z

instance [Add α] : Add (Vec3 α) := ⟨zipWith (· + ·)⟩
instance [Sub α] : Sub (Vec3 α) := ⟨zipWith (· - ·)⟩
instance [Mul α] : Mul (Vec3 α) := ⟨zipWith (· * ·)⟩

/-- A multiple of a vector. -/
def scale [Mul α] (v : Vec3 α) (s : α) : Vec3 α := v.map (· * s)

/-- The scalar product, added from the first component to the last. -/
def dot [Add α] [Mul α] (a b : Vec3 α) : α := a.x * b.x + a.y * b.y + a.z * b.z

/-- The vector product. -/
def cross [Sub α] [Mul α] (a b : Vec3 α) : Vec3 α :=
  ⟨a.y * b.z - b.y * a.z, a.z * b.x - b.z * a.x, a.x * b.y - b.x * a.y⟩

/-- The component of an axis of a componentwise map. -/
@[simp] theorem axis_map (f : α → β) (v : Vec3 α) (i : Nat) : (v.map f).axis i = f (v.axis i) := by
  unfold axis; split <;> rfl

/-- The component of an axis of a componentwise combination. -/
@[simp] theorem axis_zipWith (f : α → β → γ) (a : Vec3 α) (b : Vec3 β) (i : Nat) :
    (zipWith f a b).axis i = f (a.axis i) (b.axis i) := by
  unfold axis; split <;> rfl

end Vec3

namespace Vec4

variable {α β γ : Type}

/-- The same value in every component. -/
def splat (a : α) : Vec4 α := ⟨a, a, a, a⟩

/-- Applies a function to every component. -/
def map (f : α → β) (v : Vec4 α) : Vec4 β := ⟨f v.x, f v.y, f v.z, f v.w⟩

/-- Combines two vectors component by component. -/
def zipWith (f : α → β → γ) (a : Vec4 α) (b : Vec4 β) : Vec4 γ :=
  ⟨f a.x b.x, f a.y b.y, f a.z b.z, f a.w b.w⟩

/-- The components. -/
def toList (v : Vec4 α) : List α := [v.x, v.y, v.z, v.w]

instance [Add α] : Add (Vec4 α) := ⟨zipWith (· + ·)⟩
instance [Sub α] : Sub (Vec4 α) := ⟨zipWith (· - ·)⟩
instance [Mul α] : Mul (Vec4 α) := ⟨zipWith (· * ·)⟩

/-- A multiple of a vector. -/
def scale [Mul α] (v : Vec4 α) (s : α) : Vec4 α := v.map (· * s)

/-- The first three components. -/
def xyz (v : Vec4 α) : Vec3 α := ⟨v.x, v.y, v.z⟩

end Vec4

/-- A vector of three components with a fourth one. -/
def Vec3.extend {α : Type} (v : Vec3 α) (w : α) : Vec4 α := ⟨v.x, v.y, v.z, w⟩

/-! ## Lengths and directions -/

namespace Vec3

/-- The square of the length. -/
def lengthSquared (v : Vec3 Float32) : Float32 := v.dot v

/-- The length. -/
def length (v : Vec3 Float32) : Float32 := v.lengthSquared.sqrt

/-- The vector with length one in the same direction; `fallback` where there is none. -/
def normalizeOr (v fallback : Vec3 Float32) : Vec3 Float32 :=
  let r := 1 / v.length
  if r.isFinite && 0 < r then v.scale r else fallback

/-- The vector of zeros. -/
def zero : Vec3 Float32 := splat 0

/-- The vector whose components are one over those of another one. -/
def recip (v : Vec3 Float32) : Vec3 Float32 := v.map (1 / ·)

end Vec3

end Candela
