import Mathlib
import Candela.Proofs.Lighting.Order
import Candela.Proofs.Single.Bits
import Candela.Shader.Rule

/-!
# The stops of a color ramp

The stops of a ramp are sorted by the total order of their positions (`TotalLe`): by value, minus
zero before zero, and what is no number last. The order is computed on bit patterns
(`orderKey_le_iff`). Stops of one position stay in their order, so which list comes out is
determined (`IsStableSort.unique`), and the stops that are kept are its first ones
(`exists_isStableSort_rampStops`).
-/

namespace Candela.Shader

open Candela.Binary (Content ofSingle)
open Candela.Graph.Parameters (RampElement)
open Candela.Single (Placed pattern contentOf isMinus)
open Float.Model (UnpackedFloat)
open Float.Model.UnpackedFloat

variable {f f' : UnpackedFloat} {m m' : ℕ} {e e' : ℤ} {x y : Float32}

/-! ## The total order -/

/-- The total order of numbers: by value, minus zero before zero, what is no number last. -/
inductive TotalLe : Float32 → Float32 → Prop where
  | refl (x : Float32) : TotalLe x x
  | less {x y : Float32} (h : x < y) : TotalLe x y
  | zeros : TotalLe (-0) 0
  | last {x : Float32} (hx : x.isNaN = false) : TotalLe x Float32.nan

/-- The place of what a number stands for. -/
def contentKey : Content → ℤ
  | .finite negative m e => if negative then -1 - pattern m e else pattern m e
  | .infinite negative =>
    if negative then -1 - Binary.single.infinityBits else Binary.single.infinityBits
  | .nan => Binary.single.infinityBits + 2 ^ 22

/-- The place of a number that has a sign and a pattern without it. -/
theorem orderKey_of_withSign {negative : Bool} {n : ℕ} (hn : n < 2 ^ 31)
    (h : x.toBits.toNat = Binary.single.withSign negative n) :
    orderKey x = if negative then -1 - (n : ℤ) else n := by
  have signBit : Binary.single.signBit = 2 ^ 31 := rfl
  rw [Binary.Format.withSign, signBit] at h
  rw [orderKey, h]
  cases negative <;> simp <;> omega

/-- The place of a number follows from what it stands for. -/
theorem orderKey_eq (x : Float32) : orderKey x = contentKey (ofSingle x) := by
  have infinityBits : Binary.single.infinityBits < 2 ^ 31 := by decide
  rcases hx : ofSingle x with ⟨negative, m, e⟩ | negative | _
  · obtain ⟨bits, placed⟩ := Single.toBits_of_finite hx
    exact orderKey_of_withSign (placed.pattern_lt.trans infinityBits) bits
  · exact orderKey_of_withSign infinityBits (Single.toBits_of_infinite hx)
  · rw [Single.ofSingle_eq_nan.1 hx]
    decide

/-- Different numbers have different places. -/
theorem orderKey_injective (h : orderKey x = orderKey y) : x = y := by
  have hx : x.toBits.toNat < 2 ^ 32 := x.toBits.toNat_lt
  have hy : y.toBits.toNat < 2 ^ 32 := y.toBits.toNat_lt
  refine Float32.toBits_inj.1 (UInt32.toNat_inj.1 ?_)
  simp only [orderKey] at h
  split at h <;> split at h <;> omega

/-- The greater of two significands and exponents has the greater pattern. -/
theorem pattern_lt_pattern (h : Placed m e) (h' : Placed m' e') (hlt : e < e' ∨ e = e' ∧ m < m') :
    pattern m e < pattern m' e' := by
  obtain ⟨lt, least, greatest, full⟩ := h
  obtain ⟨lt', least', greatest', full'⟩ := h'
  simp only [pattern]
  omega

theorem placed_of_unpack {s : Sign} {hm : 0 < m} (h : x.toModel.unpack = .finite s m e hm) :
    Placed m e := by
  obtain ⟨regular, greatest⟩ := Single.regular_of_unpack h
  exact ⟨regular.lt, regular.least, greatest, regular.full⟩

/-- The pattern of a number that is not zero lies between those of zero and infinity. -/
theorem pattern_bounds {s : Sign} {hm : 0 < m} (h : x.toModel.unpack = .finite s m e hm) :
    0 < pattern m e ∧ pattern m e < Binary.single.infinityBits :=
  ⟨Nat.add_pos_right _ hm, (placed_of_unpack h).pattern_lt⟩

/-- What is unpacked before something else has a lesser place. -/
theorem contentKey_lt {p q : ℤ ×ₗ ℤ ×ₗ ℤ} (hx : x.toModel.unpack = f) (hy : y.toModel.unpack = f')
    (hp : Single.unpackedRank? f = some p) (hq : Single.unpackedRank? f' = some q) (h : p < q) :
    contentKey (contentOf f) < contentKey (contentOf f') := by
  have zero : pattern 0 (-149) = 0 := rfl
  have infinite : 0 < Binary.single.infinityBits := by decide
  rcases f with (_ | _) | _ | (_ | _) | ⟨_ | _, m, e, hm⟩ <;> cases hp <;>
    rcases f' with (_ | _) | _ | (_ | _) | ⟨_ | _, m', e', hm'⟩ <;> cases hq <;>
    simp only [Prod.Lex.toLex_lt_toLex] at h <;>
    simp only [contentKey, contentOf, isMinus, zero, if_true, Bool.false_eq_true, if_false]
  case finite.negative.refl.finite.negative.refl =>
    have := pattern_lt_pattern (placed_of_unpack hy) (placed_of_unpack hx) (by omega)
    omega
  case finite.positive.refl.finite.positive.refl =>
    have := pattern_lt_pattern (placed_of_unpack hx) (placed_of_unpack hy) (by omega)
    omega
  -- the others differ in their signs, or one of them is infinite
  all_goals
    try have := pattern_bounds hx
    try have := pattern_bounds hy
    omega

/-- What is less has a lesser place. -/
theorem orderKey_lt_of_lt (h : x < y) : orderKey x < orderKey y := by
  obtain ⟨p, q, hp, hq, hlt⟩ := Single.lt_iff.1 h
  rw [orderKey_eq, orderKey_eq, Single.ofSingle_eq, Single.ofSingle_eq]
  exact contentKey_lt rfl rfl hp hq hlt

/-- What is no number has the last place. -/
theorem orderKey_lt_nan (hx : x.isNaN = false) : orderKey x < orderKey Float32.nan := by
  have limit : orderKey Float32.nan = Binary.single.infinityBits + 2 ^ 22 := by decide
  rw [limit, orderKey_eq]
  rcases hcontent : ofSingle x with ⟨_ | _, m, e⟩ | (_ | _) | _
  case nan =>
    rw [Float32.isNaN_eq_decide_eq_nan, Single.ofSingle_eq_nan.1 hcontent] at hx
    simp at hx
  case finite.false | finite.true =>
    have := (Single.toBits_of_finite hcontent).2.pattern_lt
    simp only [contentKey]
    omega
  case infinite.false | infinite.true =>
    simp only [contentKey]
    omega

/-- What unpacks to zero is one of the two zeros. -/
theorem eq_zero_of_unpack {s : Sign} (h : x.toModel.unpack = .zero s) : x = -0 ∨ x = 0 := by
  have zero (y : Float32) (hy : ofSingle y = .finite (isMinus s) 0 (-149)) : x = y :=
    Single.ofSingle_injective (by rw [Single.ofSingle_eq, h, hy]; rfl)
  cases s with
  | negative => exact .inl (zero _ (by decide))
  | positive => exact .inr (zero _ (by decide))

/-- What is in one place is the same, or zero. -/
theorem unpacked_eq_or_zeros {p : ℤ ×ₗ ℤ ×ₗ ℤ} (hp : Single.unpackedRank? f = some p)
    (hq : Single.unpackedRank? f' = some p) :
    f = f' ∨ (∃ s, f = .zero s) ∧ ∃ s, f' = .zero s := by
  rw [← hp] at hq
  rcases f with (_ | _) | _ | s | ⟨_ | _, m, e, hm⟩ <;> cases hp <;>
    rcases f' with (_ | _) | _ | s' | ⟨_ | _, m', e', hm'⟩ <;>
    simp [Single.unpackedRank?] at hq ⊢
  all_goals exact ⟨hq.2.symm, hq.1.symm⟩

/-- Numbers that are not told apart by their values are the same, or zeros. -/
theorem eq_or_zeros {p : ℤ ×ₗ ℤ ×ₗ ℤ} (hx : Single.rank? x = some p)
    (hy : Single.rank? y = some p) : x = y ∨ (x = -0 ∨ x = 0) ∧ (y = -0 ∨ y = 0) := by
  rcases unpacked_eq_or_zeros hx hy with same | ⟨⟨s, hzero⟩, s', hzero'⟩
  · exact .inl (Single.ofSingle_injective (by rw [Single.ofSingle_eq, Single.ofSingle_eq, same]))
  · exact .inr ⟨eq_zero_of_unpack hzero, eq_zero_of_unpack hzero'⟩

theorem orderKey_neg_zero_lt : orderKey (-0) < orderKey 0 := by decide

/-- What is not after a number in the total order has no later place. -/
theorem TotalLe.orderKey_le (h : TotalLe x y) : orderKey x ≤ orderKey y := by
  cases h with
  | refl => exact le_rfl
  | less h => exact (orderKey_lt_of_lt h).le
  | zeros => exact orderKey_neg_zero_lt.le
  | last hx => exact (orderKey_lt_nan hx).le

/-- What is after a number in the total order has a later place. -/
theorem totalLe_or_orderKey_lt (x y : Float32) : TotalLe x y ∨ orderKey y < orderKey x := by
  have nan {z : Float32} (hz : z.isNaN = true) : z = Float32.nan := by
    rw [Float32.isNaN_eq_decide_eq_nan] at hz
    exact of_decide_eq_true hz
  cases hx : x.isNaN <;> cases hy : y.isNaN
  case true.true => exact .inl (nan hx ▸ nan hy ▸ .refl _)
  case true.false => exact .inr (nan hx ▸ orderKey_lt_nan hy)
  case false.true => exact .inl (nan hy ▸ .last hx)
  case false.false =>
    obtain ⟨p, hp⟩ := Single.isNaN_eq_false_iff.1 hx
    obtain ⟨q, hq⟩ := Single.isNaN_eq_false_iff.1 hy
    rcases lt_trichotomy p q with hlt | rfl | hlt
    · exact .inl (.less (Single.lt_iff.2 ⟨p, q, hp, hq, hlt⟩))
    · rcases eq_or_zeros hp hq with rfl | ⟨rfl | rfl, rfl | rfl⟩
      · exact .inl (.refl _)
      · exact .inl (.refl _)
      · exact .inl .zeros
      · exact .inr orderKey_neg_zero_lt
      · exact .inl (.refl _)
    · exact .inr (orderKey_lt_of_lt (Single.lt_iff.2 ⟨q, p, hq, hp, hlt⟩))

/-- The total order is that of the places. -/
theorem orderKey_le_iff : orderKey x ≤ orderKey y ↔ TotalLe x y :=
  ⟨fun h => (totalLe_or_orderKey_lt x y).resolve_right (not_lt.2 h), TotalLe.orderKey_le⟩

/-! ## Stable sorting -/

/-- A list has the stops of a ramp, by the total order of their positions, and those of one position
in the order in which the ramp has them. -/
structure IsStableSort (elements sorted : List RampElement) : Prop where
  perm : sorted.Perm elements
  ordered : sorted.Pairwise fun a b => TotalLe a.position b.position
  stable : ∀ x, sorted.filter (·.position = x) = elements.filter (·.position = x)

/-- There is only one such list. -/
theorem IsStableSort.unique {elements sorted sorted' : List RampElement}
    (h : IsStableSort elements sorted) (h' : IsStableSort elements sorted') : sorted = sorted' :=
  Lighting.eq_of_pairwise_of_filter_eq (·.position)
    (fun _ _ hab hba => orderKey_injective
      (le_antisymm (orderKey_le_iff.2 hab) (orderKey_le_iff.2 hba)))
    h.ordered h'.ordered fun x => (h.stable x).trans (h'.stable x).symm

/-- The stops that are kept are the first ones of it. -/
theorem exists_isStableSort_rampStops (elements : List RampElement) :
    ∃ sorted, IsStableSort elements sorted ∧ rampStops elements = sorted.take maxRampElements := by
  let le (a b : RampElement) : Bool := orderKey a.position ≤ orderKey b.position
  have trans : ∀ a b c, le a b → le b c → le a c := fun a b c hab hbc =>
    decide_eq_true (le_trans (of_decide_eq_true hab) (of_decide_eq_true hbc))
  have total : ∀ a b, le a b || le b a := fun a b => by
    simpa [le] using le_total (orderKey a.position) (orderKey b.position)
  have key : ∀ a b, a.position = b.position → le a b := fun a b same =>
    decide_eq_true (same ▸ le_rfl)
  refine ⟨elements.mergeSort le, ⟨List.mergeSort_perm _ _, ?_, ?_⟩, rfl⟩
  · exact (List.pairwise_mergeSort trans total elements).imp fun h =>
      orderKey_le_iff.1 (of_decide_eq_true h)
  · exact Lighting.filter_mergeSort trans total key elements

end Candela.Shader
