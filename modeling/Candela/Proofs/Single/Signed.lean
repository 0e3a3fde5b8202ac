import Candela.Proofs.Single.Share

/-!
# Numbers of both signs

A finite number has a value, whatever its sign (`Single.HasValue`). What is said of numbers that are
not negative is said of the others through their negations, since negation turns the order round and
rounding does not look at signs. So a sum or a product is the nearest number to the exact one
(`Single.HasValue.add`, `Single.HasValue.mul`), and nearest numbers are ordered as what they are near
to (`Single.SignedNearest.le`).

Sums that are too large are infinite, and the sum of both infinities is no number. Still a sum comes
before another one if its parts come before those of the other one (`Single.before_add`), upwards and
downwards, as long as the other one is not beyond all numbers (`Single.Beyond`): none of its parts is
beyond them then.
-/

namespace Candela.Single

open Float.Model (Format UnpackedFloat)
open Float.Model.UnpackedFloat

variable {m m' : ℕ} {e e' : ℤ} {f g : UnpackedFloat} {p q : ℚ} {x y z a b c d : Float32}

/-! ## Negation -/

theorem ofParts_neg (s : Sign) (exponent : BitVec 8) (mantissa : BitVec 23) :
    ofParts (-s) exponent mantissa = (ofParts s exponent mantissa).neg := by
  unfold ofParts
  split_ifs <;> rfl

/-- What is negated before it is packed is negated afterwards. -/
theorem unpack_pack_neg (f : UnpackedFloat) :
    (Float32.Model.pack f.neg).unpack = (Float32.Model.pack f).unpack.neg := by
  have hparts (s : Sign) (exponent : BitVec 8) (mantissa : BitVec 23) :
      UnpackedFloat.unpack .binary32 (packComponents .binary32 (-s) exponent mantissa) =
        (UnpackedFloat.unpack .binary32 (packComponents .binary32 s exponent mantissa)).neg := by
    rw [unpack_packComponents, unpack_packComponents, ofParts_neg]
  show UnpackedFloat.unpack .binary32 (UnpackedFloat.pack .binary32 f.neg) =
    (UnpackedFloat.unpack .binary32 (UnpackedFloat.pack .binary32 f)).neg
  rcases f with s | _ | s | ⟨s, m, e, hm⟩
  · exact hparts s _ _
  · exact unpack_pack_notANumber.trans (congrArg UnpackedFloat.neg unpack_pack_notANumber).symm
  · exact hparts s _ _
  · show UnpackedFloat.unpack .binary32 (UnpackedFloat.pack .binary32 (.finite (-s) m e hm)) = _
    unfold UnpackedFloat.pack
    dsimp only
    split_ifs <;> exact hparts s _ _

/-- What has been unpacked is packed as it was. -/
theorem unpack_pack_unpack (x : Float32) :
    (Float32.Model.pack x.toModel.unpack).unpack = x.toModel.unpack := by
  rcases hx : x.toModel.unpack with s | _ | s | ⟨s, m, e, hm⟩
  · exact unpack_pack_infinity s
  · exact unpack_pack_notANumber
  · exact unpack_pack_zero s
  · obtain ⟨hregular, he⟩ := regular_of_unpack hx
    rw [unpack_pack hregular, if_pos he]

theorem unpack_neg (x : Float32) : (-x).toModel.unpack = x.toModel.unpack.neg := by
  show (Float32.Model.pack x.toModel.unpack.neg).unpack = _
  rw [unpack_pack_neg, unpack_pack_unpack]

/-- The place of a negated number. -/
def opposite (r : ℤ ×ₗ ℤ ×ₗ ℤ) : ℤ ×ₗ ℤ ×ₗ ℤ :=
  toLex (-(ofLex r).1, toLex (-(ofLex (ofLex r).2).1, -(ofLex (ofLex r).2).2))

theorem opposite_le_iff {r t : ℤ ×ₗ ℤ ×ₗ ℤ} : opposite r ≤ opposite t ↔ t ≤ r := by
  obtain ⟨i, j, k⟩ := r
  obtain ⟨i', j', k'⟩ := t
  show toLex (-i, toLex (-j, -k)) ≤ toLex (-i', toLex (-j', -k')) ↔
    toLex (i', toLex (j', k')) ≤ toLex (i, toLex (j, k))
  simp only [Prod.Lex.toLex_le_toLex]
  omega

theorem rank?_neg (x : Float32) : rank? (-x) = (rank? x).map opposite := by
  rw [rank?, rank?, unpack_neg]
  rcases x.toModel.unpack with (_ | _) | _ | (_ | _) | ⟨_ | _, m, e, hm⟩ <;>
    simp [UnpackedFloat.neg, unpackedRank?, opposite]

/-- Negation turns the order round. -/
theorem neg_le_neg_iff : -x ≤ -y ↔ y ≤ x := by
  simp only [le_iff, rank?_neg, Option.map_eq_some_iff]
  constructor
  · rintro ⟨-, -, ⟨r, hx, rfl⟩, ⟨t, hy, rfl⟩, hle⟩
    exact ⟨t, r, hy, hx, opposite_le_iff.1 hle⟩
  · rintro ⟨t, r, hy, hx, hle⟩
    exact ⟨_, _, ⟨r, hx, rfl⟩, ⟨t, hy, rfl⟩, opposite_le_iff.2 hle⟩

theorem rank?_neg_zero : rank? (-0) = rank? 0 := by
  rw [rank?_neg, rank?_zero]
  rfl

/-- What is no less than zero has a negation that is no greater. -/
theorem zero_le_neg_iff : 0 ≤ -x ↔ x ≤ 0 := by
  rw [← neg_le_neg_iff (x := 0), le_iff, le_iff, rank?_neg_zero]

theorem neg_neg_unpacked (f : UnpackedFloat) : f.neg.neg = f := by
  rcases f with (_ | _) | _ | (_ | _) | ⟨_ | _, m, e, hm⟩ <;> rfl

/-! ## Rounded numbers -/

/-- The nearest number of 24 places, whatever its sign. -/
def SignedRounded (q : ℚ) (f : UnpackedFloat) : Prop :=
  0 ≤ q ∧ Rounded q f ∨ q < 0 ∧ Rounded (-q) f.neg

/-- A number has the value nearest to another one, whatever its sign, or is infinite where that is
too large. -/
def SignedNearest (x : Float32) (q : ℚ) : Prop := 0 ≤ q ∧ Nearest x q ∨ q < 0 ∧ Nearest (-x) (-q)

theorem SignedRounded.negative (hq : 0 < q) (h : Rounded q f.neg) : SignedRounded (-q) f :=
  .inr ⟨neg_lt_zero.2 hq, (neg_neg q).symm ▸ h⟩

/-- What has been rounded is packed as it is, unless it is too large. -/
theorem SignedRounded.nearest (h : SignedRounded q f)
    (hx : x.toModel.unpack = (Float32.Model.pack f).unpack) : SignedNearest x q := by
  rcases h with ⟨hq, h⟩ | ⟨hq, h⟩
  · exact .inl ⟨hq, h.nearest hx⟩
  · refine .inr ⟨hq, h.nearest ?_⟩
    rw [unpack_neg, hx, unpack_pack_neg]

theorem SignedNearest.isNaN_eq_false (h : SignedNearest x q) : x.isNaN = false := by
  rcases h with ⟨-, h⟩ | ⟨-, h⟩
  · exact (isNaN_of_le h.zero_le).2
  · exact (isNaN_of_le (zero_le_neg_iff.1 h.zero_le)).1

/-- Nearest numbers are ordered as what they are near to. -/
theorem Nearest.le (hx : Nearest x p) (hy : Nearest y q) (hp : 0 ≤ p) (h : p ≤ q) : x ≤ y := by
  have hmono := nearest_mono hp h
  by_cases hlt : Single.nearest q < limit
  · exact ((hx.denotes (hmono.trans_lt hlt)).le_iff (hy.denotes hlt)).2 hmono
  · rw [Nearest, if_neg hlt] at hy
    have hnumber := (isNaN_of_le hx.zero_le).2
    exact (not_lt_iff (isNaN_of_lt hy.zero_lt).2 hnumber).1 hy.not_lt

theorem SignedNearest.le (hx : SignedNearest x p) (hy : SignedNearest y q) (h : p ≤ q) :
    x ≤ y := by
  rcases hx with ⟨hp, hx⟩ | ⟨hp, hx⟩ <;> rcases hy with ⟨hq, hy⟩ | ⟨hq, hy⟩
  · exact hx.le hy hp h
  · exact absurd (hp.trans h) (not_le.2 hq)
  · exact le_trans (zero_le_neg_iff.1 hx.zero_le) hy.zero_le
  · exact neg_le_neg_iff.1 (hy.le hx (neg_nonneg.2 hq.le) (neg_le_neg h))

/-! ## Values -/

/-- The value of an unpacked number; what is not finite counts as zero. -/
def unpackedValue : UnpackedFloat → ℚ
  | .finite s m e _ => s.apply m * 2 ^ e
  | _ => 0

/-- The value of a number. -/
def value (x : Float32) : ℚ := unpackedValue x.toModel.unpack

/-- A finite number and its value. -/
def HasValue (x : Float32) (q : ℚ) : Prop := x.isFinite = true ∧ value x = q

/-- What is finite is zero or has a sign. -/
theorem HasValue.cases (h : HasValue x q) : (∃ s, x.toModel.unpack = .zero s) ∧ q = 0 ∨
    ∃ s m e hm, x.toModel.unpack = .finite s m e hm ∧ q = s.apply m * 2 ^ e ∧ Regular m e := by
  obtain ⟨hfinite, hvalue⟩ := h
  rw [value] at hvalue
  have hfinite : x.toModel.unpack.isFinite = true := hfinite
  rcases hx : x.toModel.unpack with s | _ | s | ⟨s, m, e, hm⟩ <;> rw [hx] at hfinite hvalue
  · cases hfinite
  · cases hfinite
  · exact .inl ⟨⟨s, rfl⟩, hvalue.symm⟩
  · exact .inr ⟨s, m, e, hm, rfl, hvalue.symm, (regular_of_unpack hx).1⟩

theorem apply_negative (m : ℕ) (e : ℤ) : (Sign.negative.apply m * 2 ^ e : ℚ) = -(m * 2 ^ e) := by
  simp [Sign.apply]

theorem HasValue.ne_infinity (h : HasValue x q) (s : Sign) : x.toModel.unpack ≠ .infinity s := by
  intro hx
  have hfinite : x.toModel.unpack.isFinite = true := h.1
  rw [hx] at hfinite
  cases hfinite

theorem Regular.neg_value_neg (h : Regular m e) : (Sign.negative.apply m * 2 ^ e : ℚ) < 0 :=
  (apply_negative m e).trans_lt (neg_lt_zero.2 h.value_pos)

/-- A regular number of any sign is rounded to itself. -/
theorem Regular.signedRounded (h : Regular m e) (s : Sign) (hm : 0 < m) :
    SignedRounded (s.apply m * 2 ^ e) (.finite s m e hm) := by
  cases s with
  | positive => exact .inl ⟨h.value_pos.le, h.rounded hm⟩
  | negative =>
    rw [apply_negative]
    exact .negative h.value_pos (h.rounded hm)

theorem signedRounded_zero (s : Sign) : SignedRounded 0 (.zero s) :=
  .inl ⟨le_rfl, .zero s nearest_zero⟩

/-- A finite number is the nearest one to its value. -/
theorem HasValue.nearest (h : HasValue x q) : SignedNearest x q := by
  obtain ⟨⟨s, hx⟩, rfl⟩ | ⟨s, m, e, hm, hx, rfl, hregular⟩ := h.cases
  · exact (signedRounded_zero s).nearest (by rw [← hx, unpack_pack_unpack])
  · exact (hregular.signedRounded s hm).nearest (by rw [← hx, unpack_pack_unpack])

theorem Denotes.hasValue (h : Denotes x q) : HasValue x q := by
  refine ⟨(exists_denotes_iff.1 ⟨q, h⟩).1, ?_⟩
  obtain ⟨⟨s, hx⟩, rfl⟩ | ⟨m, e, hm, hx, rfl, -⟩ := h.cases <;> rw [value, hx] <;> rfl

/-- What is nearest to a representable number has its value. -/
theorem SignedNearest.hasValue (h : SignedNearest x q) (hq : Representable q) (hlt : q < limit) :
    HasValue x q := by
  rcases h with ⟨-, h⟩ | ⟨hneg, -⟩
  · have hx := h.denotes (hq.nearest_eq_self.trans_lt hlt)
    rw [hq.nearest_eq_self] at hx
    exact hx.hasValue
  · exact absurd hneg (not_lt.2 hq.nonneg)

/-- Numbers that are no greater than each other are in the same place. -/
theorem rank?_eq_of_le (h : x ≤ y) (h' : y ≤ x) : rank? x = rank? y := by
  obtain ⟨r, t, hr, ht, hrt⟩ := Single.le_iff.1 h
  obtain ⟨t', r', ht', hr', htr⟩ := Single.le_iff.1 h'
  cases hr.symm.trans hr'
  cases ht.symm.trans ht'
  rw [hr, ht, le_antisymm hrt htr]

/-- Numbers in the same place have the same value. -/
theorem unpackedValue_eq_of_rank (h : unpackedRank? f = unpackedRank? g) :
    unpackedValue f = unpackedValue g := by
  rcases f with (_ | _) | _ | s | ⟨_ | _, m, e, hm⟩ <;>
    rcases g with (_ | _) | _ | s' | ⟨_ | _, m', e', hm'⟩ <;>
    simp [unpackedRank?, unpackedValue] at h ⊢
  all_goals rw [h.1, h.2]

/-- Finite numbers are ordered as their values are. -/
theorem HasValue.le_iff (hx : HasValue x p) (hy : HasValue y q) : x ≤ y ↔ p ≤ q := by
  refine ⟨fun hle => ?_, hx.nearest.le hy.nearest⟩
  by_contra hlt
  have hsame : value x = value y :=
    unpackedValue_eq_of_rank (rank?_eq_of_le hle (hy.nearest.le hx.nearest (le_of_not_ge hlt)))
  exact hlt (hx.2.symm.trans (hsame.trans hy.2)).le

/-! ## Operations -/

theorem round_neg (M : ℕ) (E : ℤ) (acc : Accuracy) :
    (roundWithAccuracy .binary32 .negative M E acc).neg =
      roundWithAccuracy .binary32 .positive M E acc := by
  unfold roundWithAccuracy
  dsimp only
  split_ifs <;> rfl

/-- Exact numbers of any sign are rounded to the nearest one. -/
theorem signedRounded_normalize (M E : ℤ) :
    SignedRounded (M * 2 ^ E) (UnpackedFloat.normalize .binary32 M E .positive) := by
  rcases lt_trichotomy M 0 with hneg | rfl | hpos
  · obtain ⟨n, rfl⟩ : ∃ n : ℕ, M = -n := ⟨(-M).toNat, by omega⟩
    have hn : 0 < n := by omega
    have hnegative : (UnpackedFloat.normalize .binary32 (-n) E .positive).neg =
        UnpackedFloat.normalize .binary32 n E .positive := by
      unfold UnpackedFloat.normalize
      rw [compare_lt_iff_lt.2 hneg, compare_gt_iff_gt.2 (Int.natCast_pos.2 hn)]
      dsimp only
      rw [neg_neg]
      exact round_neg _ _ _
    have hrounded := rounded_normalize hn E
    rw [← hnegative] at hrounded
    have hvalue : ((-n : ℤ) : ℚ) * 2 ^ E = -(n * 2 ^ E) := by push_cast; ring
    rw [hvalue]
    exact .negative (mul_pos (Nat.cast_pos.2 hn) (two_zpow_pos E)) hrounded
  · rw [Int.cast_zero, zero_mul]
    exact signedRounded_zero .positive
  · obtain ⟨n, rfl⟩ : ∃ n : ℕ, M = n := ⟨M.toNat, by omega⟩
    have hn : 0 < n := by omega
    rw [Int.cast_natCast]
    exact .inl ⟨(mul_pos (Nat.cast_pos.2 hn) (two_zpow_pos E)).le, rounded_normalize hn E⟩

/-- A lesser exponent makes the mantissa longer. -/
theorem signed_shiftLeft (s : Sign) (m : ℕ) (h : e' ≤ e) :
    (s.apply (m <<< (e - e').toNat : ℕ) * 2 ^ e' : ℚ) = s.apply m * 2 ^ e := by
  have hvalue := value_shiftLeft m h
  cases s
  · rw [apply_negative, apply_negative, hvalue]
  · exact hvalue

/-- A sum is rounded. -/
theorem HasValue.add (h : HasValue x p) (h' : HasValue y q) : SignedNearest (x + y) (p + q) := by
  suffices hrounded : SignedRounded (p + q)
      (UnpackedFloat.add .binary32 x.toModel.unpack y.toModel.unpack) from hrounded.nearest rfl
  obtain ⟨⟨s, hx⟩, rfl⟩ | ⟨s, m, e, hm, hx, rfl, hregular⟩ := h.cases <;>
    obtain ⟨⟨s', hy⟩, rfl⟩ | ⟨s', m', e', hm', hy, rfl, hregular'⟩ := h'.cases <;>
    rw [hx, hy]
  · rw [add_zero]
    cases s <;> cases s' <;> exact signedRounded_zero _
  · rw [zero_add]
    exact hregular'.signedRounded s' hm'
  · rw [add_zero]
    exact hregular.signedRounded s hm
  · rw [← signed_shiftLeft s m (min_le_left e e'), ← signed_shiftLeft s' m' (min_le_right e e'),
      ← add_mul, ← Int.cast_add]
    exact signedRounded_normalize _ _

/-- A product is rounded. -/
theorem HasValue.mul (h : HasValue x p) (h' : HasValue y q) : SignedNearest (x * y) (p * q) := by
  suffices hrounded : SignedRounded (p * q)
      (UnpackedFloat.mul .binary32 x.toModel.unpack y.toModel.unpack) from hrounded.nearest rfl
  obtain ⟨⟨s, hx⟩, rfl⟩ | ⟨s, m, e, hm, hx, rfl, hregular⟩ := h.cases <;>
    obtain ⟨⟨s', hy⟩, rfl⟩ | ⟨s', m', e', hm', hy, rfl, hregular'⟩ := h'.cases <;>
    rw [hx, hy]
  · rw [mul_zero]
    exact signedRounded_zero _
  · rw [zero_mul]
    exact signedRounded_zero _
  · rw [mul_zero]
    exact signedRounded_zero _
  · have hpos := mul_pos hregular.value_pos hregular'.value_pos
    have hrounded := hregular.rounded_mul hregular'
    have hnegative : SignedRounded (-(m * 2 ^ e * (m' * 2 ^ e')))
        (roundWithAccuracy .binary32 .negative (m * m') (e + e') .exact) :=
      .negative hpos ((round_neg _ _ _).symm ▸ hrounded)
    cases s with
    | positive =>
      cases s' with
      | positive => exact .inl ⟨hpos.le, hrounded⟩
      | negative =>
        rw [apply_negative, mul_neg]
        exact hnegative
    | negative =>
      rw [apply_negative, neg_mul]
      cases s' with
      | positive => exact hnegative
      | negative =>
        rw [apply_negative, mul_neg, neg_neg]
        exact .inl ⟨hpos.le, hrounded⟩

/-- A division by one changes nothing. -/
theorem unpack_div_one (h : HasValue y 1) (x : Float32) :
    (x / y).toModel.unpack = x.toModel.unpack := by
  obtain ⟨-, hzero⟩ | ⟨s', m', e', hm', hy, hone, hregular'⟩ := h.cases
  · exact absurd hzero one_ne_zero
  cases s' with
  | negative => exact absurd (hone.trans_lt hregular'.neg_value_neg) (not_lt.2 zero_le_one)
  | positive =>
    have hone : (m' * 2 ^ e' : ℚ) = 1 := hone.symm
    have hdiv : (x / y).toModel.unpack = (Float32.Model.pack (UnpackedFloat.div .binary32
        x.toModel.unpack (.finite .positive m' e' hm'))).unpack := hy ▸ rfl
    rw [hdiv]
    conv_rhs => rw [← unpack_pack_unpack]
    congr 2
    rcases hx : x.toModel.unpack with (_ | _) | _ | (_ | _) | ⟨s, m, e, hm⟩
    case finite =>
      have hregular := (regular_of_unpack hx).1
      have hpos : 0 < Single.nearest (m * 2 ^ e) :=
        hregular.value_pos.trans_eq hregular.representable.nearest_eq_self.symm
      have hrounded := rounded_div hm hm' e e'
      rw [hone, div_one] at hrounded
      have hsame := hrounded.unique (hregular.rounded hm) hpos
      cases s with
      | positive => exact hsame
      | negative =>
        rw [← round_neg] at hsame
        exact (neg_neg_unpacked _).symm.trans (congrArg UnpackedFloat.neg hsame)
    all_goals rfl

/-! ## Orders -/

/-- One comes before another one, on the way up or on the way down. -/
def Before {α : Type} [LE α] : Sign → α → α → Prop
  | .positive, x, y => x ≤ y
  | .negative, x, y => y ≤ x

variable {s : Sign}

theorem before_self (hx : x.isNaN = false) : Before s x x := by
  cases s <;> exact le_self hx

theorem Before.isNaN_eq_false (h : Before s x y) : x.isNaN = false ∧ y.isNaN = false := by
  cases s
  · exact (isNaN_of_le h).symm
  · exact isNaN_of_le h

theorem Before.trans (h : Before s x y) (h' : Before s y z) : Before s x z := by
  cases s
  · exact le_trans h' h
  · exact le_trans h h'

/-- The order only looks at what numbers are unpacked to. -/
theorem before_congr {x' y' : Float32} (hx : x.toModel.unpack = x'.toModel.unpack)
    (hy : y.toModel.unpack = y'.toModel.unpack) : Before s x y ↔ Before s x' y' := by
  cases s <;> simp only [Before, Single.le_iff, rank?, hx, hy]

theorem SignedNearest.before (hx : SignedNearest x p) (hy : SignedNearest y q)
    (h : Before s p q) : Before s x y := by
  cases s
  · exact hy.le hx h
  · exact hx.le hy h

theorem HasValue.before_iff (hx : HasValue x p) (hy : HasValue y q) :
    Before s x y ↔ Before s p q := by
  cases s
  · exact hy.le_iff hx
  · exact hx.le_iff hy

/-- Every number comes after the infinity on the other side. -/
theorem before_infinity (hx : x.toModel.unpack = .infinity (-s)) (hy : y.isNaN = false) :
    Before s x y := by
  obtain ⟨t, ht⟩ := isNaN_eq_false_iff.1 hy
  have hrank : rank? x = unpackedRank? (.infinity (-s)) := congrArg unpackedRank? hx
  suffices hle : ∃ r, rank? x = some r ∧ Before s r t by
    obtain ⟨r, hr, hrt⟩ := hle
    cases s
    · exact Single.le_iff.2 ⟨t, r, ht, hr, hrt⟩
    · exact Single.le_iff.2 ⟨r, t, hr, ht, hrt⟩
  rw [rank?] at ht
  generalize y.toModel.unpack = g at ht
  cases s <;> refine ⟨_, hrank, ?_⟩ <;>
    rcases g with (_ | _) | _ | (_ | _) | ⟨_ | _, m, e, hm⟩ <;> cases ht <;>
    simp [Before, Prod.Lex.toLex_le_toLex]

/-- Every number comes before infinity. -/
theorem before_of_infinity (hx : x.isNaN = false) (hy : y.toModel.unpack = .infinity s) :
    Before s x y := by
  cases s with
  | positive => exact before_infinity (s := .negative) hy hx
  | negative => exact before_infinity (s := .positive) hy hx

/-- Only infinity comes after infinity. -/
theorem Before.infinity (h : Before s x y) (hx : x.toModel.unpack = .infinity s) :
    y.toModel.unpack = .infinity s := by
  have hback : Before s y x := before_of_infinity h.isNaN_eq_false.2 hx
  have hsame : rank? x = rank? y := by
    cases s
    · exact rank?_eq_of_le hback h
    · exact rank?_eq_of_le h hback
  rw [rank?, rank?, hx] at hsame
  generalize y.toModel.unpack = g at hsame
  rcases g with (_ | _) | _ | (_ | _) | ⟨_ | _, m, e, hm⟩ <;> cases s <;>
    simp [unpackedRank?] at hsame ⊢

/-! ## Sums with infinity -/

/-- No number, or infinity. -/
def Beyond (s : Sign) (f : UnpackedFloat) : Prop := f = .notANumber ∨ f = .infinity s

theorem Beyond.unpack_pack (h : Beyond s f) :
    Beyond s (Float32.Model.pack f).unpack := by
  rcases h with rfl | rfl
  · exact .inl unpack_pack_notANumber
  · exact .inr (unpack_pack_infinity s)

/-- A sum with infinity is infinite or no number. -/
theorem Beyond.add (h : Beyond s f ∨ Beyond s g) :
    Beyond s (UnpackedFloat.add .binary32 f g) := by
  unfold Beyond
  rcases h with (rfl | rfl) | (rfl | rfl)
  · cases g <;> exact .inl rfl
  · rcases g with (_ | _) | _ | _ | _ <;> cases s <;> simp [UnpackedFloat.add]
  · cases f <;> exact .inl rfl
  · rcases f with (_ | _) | _ | _ | _ <;> cases s <;> simp [UnpackedFloat.add]

/-- The other infinity is the only one that is not beyond all numbers. -/
theorem sign_eq_neg {t : Sign} (h : ¬ Beyond s (.infinity t)) : t = -s := by
  cases s <;> cases t
  · exact absurd (.inr rfl) h
  · rfl
  · rfl
  · exact absurd (.inr rfl) h

/-- What is not beyond all numbers is finite or infinite the other way. -/
theorem infinity_or_hasValue (h : ¬ Beyond s x.toModel.unpack) :
    x.toModel.unpack = .infinity (-s) ∨ ∃ q, HasValue x q := by
  have hfinite : x.isFinite = x.toModel.unpack.isFinite := rfl
  unfold HasValue value
  rw [hfinite]
  generalize x.toModel.unpack = f at *
  rcases f with t | _ | t | ⟨t, m, e, hm⟩
  · exact .inl (congrArg UnpackedFloat.infinity (sign_eq_neg h))
  · exact absurd (.inl rfl) h
  · exact .inr ⟨_, rfl, rfl⟩
  · exact .inr ⟨_, rfl, rfl⟩

/-- Infinity stays infinite in a sum with what is not beyond the other one. -/
theorem infinity_add (h : ¬ Beyond s g) :
    UnpackedFloat.add .binary32 (.infinity (-s)) g = .infinity (-s) ∧
      UnpackedFloat.add .binary32 g (.infinity (-s)) = .infinity (-s) := by
  rcases g with t | _ | t | ⟨t, m, e, hm⟩
  · rw [sign_eq_neg h]
    cases s <;> exact ⟨rfl, rfl⟩
  · exact absurd (.inl rfl) h
  · cases s <;> exact ⟨rfl, rfl⟩
  · cases s <;> exact ⟨rfl, rfl⟩

/-- What comes before something that is not beyond all numbers is not beyond them either. -/
theorem Before.not_beyond (h : Before s x y) (hy : ¬ Beyond s y.toModel.unpack) :
    ¬ Beyond s x.toModel.unpack := by
  rintro (hx | hx)
  · exact absurd (isNaN_iff.2 hx) (Bool.eq_false_iff.1 h.isNaN_eq_false.1)
  · exact hy (.inr (h.infinity hx))

/-- What comes after a finite number is finite, unless it is beyond all numbers. -/
theorem Before.exists_value (h : Before s x y) (hx : HasValue x p)
    (hy : ¬ Beyond s y.toModel.unpack) : ∃ q, HasValue y q ∧ Before s p q := by
  rcases infinity_or_hasValue hy with hinf | ⟨q, hq⟩
  · have hback : Before (-s) y x := by cases s <;> exact h
    have hfinite : x.toModel.unpack.isFinite = true := hx.1
    rw [hback.infinity hinf] at hfinite
    cases hfinite
  · exact ⟨q, hq, (hx.before_iff hq).1 h⟩

/-- A sum comes before another one if its parts do, unless the other one is beyond all numbers. -/
theorem before_add (hb : ¬ Beyond s b.toModel.unpack → Before s a b)
    (hd : ¬ Beyond s d.toModel.unpack → Before s c d) (h : ¬ Beyond s (b + d).toModel.unpack) :
    Before s (a + c) (b + d) := by
  obtain ⟨hb', hd'⟩ := not_or.1 fun hparts => h (Beyond.add hparts).unpack_pack
  have hab := hb hb'
  have hcd := hd hd'
  have hnumber : (b + d).isNaN = false := by
    rw [Bool.eq_false_iff, Ne, isNaN_iff]
    exact fun hnan => h (.inl hnan)
  have hsum : (a + c).toModel.unpack = (Float32.Model.pack (UnpackedFloat.add .binary32
    a.toModel.unpack c.toModel.unpack)).unpack := rfl
  rcases infinity_or_hasValue (hab.not_beyond hb') with ha | ⟨p, hp⟩
  · rw [ha, (infinity_add (hcd.not_beyond hd')).1, unpack_pack_infinity] at hsum
    exact before_infinity hsum hnumber
  rcases infinity_or_hasValue (hcd.not_beyond hd') with hc | ⟨q, hq⟩
  · rw [hc, (infinity_add (hab.not_beyond hb')).2, unpack_pack_infinity] at hsum
    exact before_infinity hsum hnumber
  · obtain ⟨p', hp', hpp⟩ := hab.exists_value hp hb'
    obtain ⟨q', hq', hqq⟩ := hcd.exists_value hq hd'
    refine (hp.add hq).before (hp'.add hq') ?_
    cases s <;> exact add_le_add hpp hqq

end Candela.Single
