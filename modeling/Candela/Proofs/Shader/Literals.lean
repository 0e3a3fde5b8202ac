import Candela.Proofs.Decimal.Reading
import Candela.Shader.Expression

/-!
# Literals of numbers

A number is written so that the number which is read back is the same, except that zero stands in
for what is not finite (`readable`, `single?_numberText`). The text has numeric characters only
(`isNumeric_of_mem_numberText`), so it ends where a comma follows.
-/

namespace Candela.Shader

open Candela.Decimal (isNumeric)

variable {x : Float32}

/-- What is not finite has the literal of zero. -/
theorem numberText_of_not_isFinite (hx : x.isFinite = false) : numberText x = "0.0" := by
  unfold numberText Decimal.Layout.single
  rcases hcontent : Binary.ofSingle x with ⟨negative, m, e⟩ | negative | _
  · rw [Single.isFinite_iff.2 ⟨negative, m, e, hcontent⟩] at hx
    cases hx
  · cases negative <;> rfl
  · rfl

/-- The number that a literal stands for. -/
def readable (x : Float32) : Float32 := if x.isFinite then x else 0

theorem readable_of_isFinite (hx : x.isFinite = true) : readable x = x := if_pos hx

theorem readable_of_not_isFinite (hx : x.isFinite = false) : readable x = 0 :=
  if_neg (hx ▸ Bool.false_ne_true)

/-- A literal is read as the number that it stands for. -/
theorem single?_numberText (x : Float32) :
    Text.single? (numberText x).toList = some (readable x) := by
  cases hx : x.isFinite with
  | true =>
    rw [readable_of_isFinite hx]
    exact numberLayout.single?_single rfl hx
  | false =>
    rw [readable_of_not_isFinite hx, numberText_of_not_isFinite hx]
    decide

/-- A literal has numeric characters only. -/
theorem isNumeric_of_mem_numberText (x : Float32) :
    ∀ c ∈ (numberText x).toList, isNumeric c = true := by
  cases hx : x.isFinite with
  | true => exact numberLayout.isNumeric_of_mem_single hx
  | false =>
    rw [numberText_of_not_isFinite hx]
    exact List.all_eq_true.1 (by decide)

end Candela.Shader
