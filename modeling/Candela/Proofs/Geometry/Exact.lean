import Mathlib.Data.EReal.Inv
import Candela.Geometry.Box

/-!
# Exact geometry

What boxes do over exact numbers, with two infinities beyond all of them. What is made of real
numbers only stays so in sums, differences, products and quotients by numbers other than zero
(`Vec3.exact`, `Box.exact`, `Mat4.exact`).
-/

namespace Candela

/-- The extended real numbers as scalars of boxes. -/
noncomputable instance : Extremes EReal := ⟨⊥, ⊤, min, max⟩

/-! ## Embeddings -/

namespace Vec3

/-- A vector of real numbers among those of extended ones. -/
def exact (v : Vec3 ℝ) : Vec3 EReal := v.map (↑)

/-- What holds on every axis holds on three. -/
theorem forall_axis {α : Type} {p : α → α → Prop} {a b : Vec3 α} :
    (∀ axis, p (a.axis axis) (b.axis axis)) ↔ p a.x b.x ∧ p a.y b.y ∧ p a.z b.z := by
  refine ⟨fun h => ⟨h 0, h 1, h 2⟩, ?_⟩
  rintro ⟨hx, hy, hz⟩ (_ | _ | _)
  · exact hx
  · exact hy
  · exact hz

end Vec3

/-- A vector of real numbers among those of extended ones. -/
def Vec4.exact (v : Vec4 ℝ) : Vec4 EReal := v.map (↑)

/-- A matrix of real numbers among those of extended ones. -/
def Mat4.exact (m : Mat4 ℝ) : Mat4 EReal := ⟨m.x.exact, m.y.exact, m.z.exact, m.w.exact⟩

/-- A matrix without perspective: its last row is that of the identity. -/
structure Mat4.Affine (m : Mat4 ℝ) : Prop where
  x : m.x.w = 0
  y : m.y.w = 0
  z : m.z.w = 0
  w : m.w.w = 1

/-- A box of real numbers among those of extended ones. -/
def Box.exact (b : Box ℝ) : Box EReal := ⟨b.lower.exact, b.upper.exact⟩

/-- A point lies in a box, or on one of its sides. -/
def Box.Contains {α : Type} [LE α] (b : Box α) (p : Vec3 α) : Prop :=
  ∀ axis, b.lower.axis axis ≤ p.axis axis ∧ p.axis axis ≤ b.upper.axis axis

end Candela
