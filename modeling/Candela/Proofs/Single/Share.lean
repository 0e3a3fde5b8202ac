import Candela.Proofs.Single.Value

/-!
# Shares of numbers

The share that a number has in one that is not less is between zero and one, and the share of more
is no less (`Single.div_mono`). At both ends it is exact, to the last bit: zero has the share zero
(`Single.Denotes.zero_div_eq`), and a number has the share one in itself
(`Single.Denotes.div_eq_one`), since what is rounded to a positive number has one form only
(`Single.Rounded.unique`).
-/

namespace Candela.Single

open Float.Model (Format UnpackedFloat)
open Float.Model.UnpackedFloat

variable {m m' : ℕ} {e e' : ℤ} {f g : UnpackedFloat} {q r : ℚ} {x y z : Float32}

/-! ## Roots -/

theorem NotNegative.sqrt (f : UnpackedFloat) : NotNegative (UnpackedFloat.sqrt .binary32 f) := by
  rcases f with (_ | _) | _ | s | ⟨_ | _, m, e, hm⟩
  case infinity.positive => exact .infinity
  case zero => exact .zero s
  case finite.positive => exact notNegative_roundWithAccuracy _ _ _
  all_goals exact .notANumber

/-- No root is negative; that of a negative number is no number. -/
theorem not_neg_sqrt (x : Float32) : ¬ x.sqrt < 0 := by
  rw [not_lt_zero_iff]
  exact (NotNegative.sqrt x.toModel.unpack).unpack_pack

/-! ## Forms -/

/-- Regular numbers of the same value are the same. -/
theorem Regular.unique (h : Regular m e) (h' : Regular m' e')
    (heq : (m * 2 ^ e : ℚ) = m' * 2 ^ e') : m = m' ∧ e = e' := by
  have hnot := mt (h.value_lt h') heq.not_lt
  have hnot' := mt (h'.value_lt h) heq.not_gt
  omega

/-- What is rounded to a positive number has one form only. -/
theorem Rounded.unique (hf : Rounded q f) (hg : Rounded q g) (hpos : 0 < Single.nearest q) :
    f = g := by
  cases hf with
  | zero s h => exact absurd h hpos.ne'
  | finite hm h hvalue =>
    cases hg with
    | zero s h' => exact absurd h' hpos.ne'
    | finite hm' h' hvalue' =>
      obtain ⟨hmantissa, hexponent⟩ := h.unique h' (hvalue.symm.trans hvalue')
      exact finite_congr hmantissa hexponent

/-- Zero, and not the negative one. -/
theorem zero_eq : (0 : Float32) = .ofModel (.pack (.zero .positive)) := by decide +kernel

theorem one_eq : (1 : Float32) =
    .ofModel (.pack (.finite .positive (2 ^ 23) (-23) (by norm_num))) := by
  decide +kernel

theorem unpack_zero : (0 : Float32).toModel.unpack = .zero .positive := by
  rw [zero_eq]
  exact unpack_pack_zero .positive

/-- Zero and another zero, of any sign, are zero. -/
theorem zero_add_of_denotes (h : Denotes x 0) : 0 + x = 0 := by
  obtain ⟨⟨s, hx⟩, -⟩ | ⟨m, e, hm, -, hzero, hregular, -⟩ := h.cases
  · show Float32.ofModel (.pack (UnpackedFloat.add .binary32 (0 : Float32).toModel.unpack
      x.toModel.unpack)) = 0
    rw [unpack_zero, hx, zero_eq]
    cases s <;> rfl
  · exact absurd hzero hregular.value_pos.ne

/-! ## Order -/

/-- What has a value is less than infinity. -/
theorem Denotes.lt_infinity (h : Denotes x q) (h' : IsInfinity y) : x < y := by
  have hy : rank? y = some (toLex (2, toLex (0, 0))) := by rw [rank?, h']; rfl
  obtain ⟨hx, -⟩ | ⟨m, e, hx, -⟩ := h.rank <;>
    exact (lt_iff_of_rank hx hy).2 (Prod.Lex.toLex_lt_toLex.2 (.inl (by norm_num)))

/-- What is no greater than a finite number, and not negative, is finite. -/
theorem Denotes.of_le (h : Denotes y q) (hx : 0 ≤ x) (hle : x ≤ y) : ∃ p, Denotes x p ∧ p ≤ q := by
  rcases zero_le_iff.1 hx with ⟨p, hp⟩ | hinf
  · exact ⟨p, hp, (hp.le_iff h).1 hle⟩
  · exact absurd (lt_of_le_of_lt hle (h.lt_infinity hinf)) (not_lt_self x)

/-! ## Shares -/

/-- Zero has no share in anything. -/
theorem Denotes.zero_div_eq (h : Denotes x q) (hq : 0 < q) : 0 / x = 0 := by
  obtain ⟨-, rfl⟩ | ⟨m, e, hm, hx, -⟩ := h.cases
  · exact absurd hq (lt_irrefl 0)
  · show Float32.ofModel (.pack (UnpackedFloat.div .binary32 (0 : Float32).toModel.unpack
      x.toModel.unpack)) = 0
    rw [unpack_zero, hx, zero_eq]
    rfl

/-- A number is all of itself. -/
theorem Denotes.div_eq_one (h : Denotes x q) (hq : 0 < q) : x / x = 1 := by
  obtain ⟨-, rfl⟩ | ⟨m, e, hm, hx, rfl, -⟩ := h.cases
  · exact absurd hq (lt_irrefl 0)
  · have hone : Regular (2 ^ 23) (-23) := ⟨by norm_num, by norm_num, by norm_num, .inl le_rfl⟩
    have hvalue : ((2 ^ 23 : ℕ) : ℚ) * 2 ^ (-23 : ℤ) = 1 := by norm_num
    have hrounded := rounded_div hm hm e e
    have hrounded' := hone.rounded (by norm_num)
    rw [div_self hq.ne'] at hrounded
    rw [hvalue] at hrounded'
    have hpos : 0 < Single.nearest 1 := one_pos.trans_eq Representable.one.nearest_eq_self.symm
    show Float32.ofModel (.pack (UnpackedFloat.div .binary32 x.toModel.unpack
      x.toModel.unpack)) = 1
    rw [hx, one_eq, ← hrounded.unique hrounded' hpos]
    rfl

/-- Shares are between zero and one, and the share of more is no less. -/
theorem div_mono (hx : 0 ≤ x) (hxy : x ≤ y) (hyz : y ≤ z) (hz : Denotes z r) (hr : 0 < r) :
    0 ≤ x / z ∧ x / z ≤ y / z ∧ y / z ≤ 1 := by
  obtain ⟨q, hy, hqr⟩ := hz.of_le (le_trans hx hxy) hyz
  obtain ⟨p, hp, hpq⟩ := hy.of_le hx hxy
  have hone : nearest (q / r) ≤ 1 :=
    Representable.one.nearest_le (div_nonneg hy.nonneg hr.le) ((div_le_one hr).2 hqr)
  have hmono : nearest (p / r) ≤ nearest (q / r) :=
    nearest_mono (div_nonneg hp.nonneg hr.le) (div_le_div_of_nonneg_right hpq hr.le)
  have hy' := (hy.div hz hr).denotes_of_le hone denotes_one.lt_limit
  have hx' := (hp.div hz hr).denotes_of_le (hmono.trans hone) denotes_one.lt_limit
  exact ⟨zero_le_iff.2 (.inl ⟨_, hx'⟩), (hx'.le_iff hy').2 hmono, (hy'.le_iff denotes_one).2 hone⟩

end Candela.Single
