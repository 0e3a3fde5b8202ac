import Candela.Decimal.Layout
import Candela.Proofs.Decimal.Shortest
import Candela.Proofs.Text.Numeral

/-!
# Written numbers read back

However the digits of a number are laid out, the text is read as what the digits stand for
(`Digits.value`, `readsAs_magnitude`), and that is rounded to the number, since it lies in the
number's cell (`nearestDecimal_eq_pattern`). So a finite single-precision number is read back from
its text as it is, with the sign of a zero (`Layout.single?_single`). The text has digits, a point,
signs and the letter of an exponent, and nothing else (`Layout.isNumeric_of_mem_single`).
-/

namespace Candela.Decimal

open Candela.Binary (single zpow_eq_div Format)
open Candela.Single (Placed pattern)
open Candela.Text (magnitude? splitFraction splitSign dropPlus exponent? digits?)

variable {D : Digits} {d m n : ℕ} {e k x : ℤ} {cs whole tail fraction rest : List Char}

/-! ## What digits stand for -/

/-- The number that some digits stand for. -/
def Digits.value (D : Digits) : ℚ :=
  Nat.ofDigitChars 10 D.digits 0 * 10 ^ (D.point - D.digits.length)

/-- There are digits, and nothing else. -/
structure Digits.Written (D : Digits) : Prop where
  nonempty : D.digits ≠ []
  isDigit : ∀ c ∈ D.digits, c.isDigit = true

/-- A list without the zeros at its end, and these zeros. -/
theorem stripped_append (cs : List Char) : ∃ z,
    cs = (cs.reverse.dropWhile (· == '0')).reverse ++ List.replicate z '0' := by
  refine ⟨(cs.reverse.takeWhile (· == '0')).length, ?_⟩
  have zeros : cs.reverse.takeWhile (· == '0') =
      List.replicate (cs.reverse.takeWhile (· == '0')).length '0' :=
    List.eq_replicate_iff.2 ⟨rfl, fun c hc => by simpa using List.mem_takeWhile_imp hc⟩
  have split := congrArg List.reverse
    (List.takeWhile_append_dropWhile (p := (· == '0')) (l := cs.reverse))
  rw [List.reverse_append, List.reverse_reverse, zeros, List.reverse_replicate] at split
  exact split.symm

/-- The digits of a scaled number stand for it. -/
theorem Digits.ofScaled_spec (hd : 0 < d) (k : ℤ) :
    (ofScaled d k).Written ∧ (ofScaled d k).value = d * 10 ^ k := by
  obtain ⟨z, hz⟩ := stripped_append (Nat.toDigits 10 d)
  have digits : Nat.toDigits 10 d = (ofScaled d k).digits ++ List.replicate z '0' := hz
  have point : (ofScaled d k).point - (ofScaled d k).digits.length = k + z := by
    have length := congrArg List.length digits
    rw [List.length_append, List.length_replicate] at length
    show ((Nat.toDigits 10 d).length + k : ℤ) - _ = _
    rw [length]
    push_cast
    ring
  have value : d = Nat.ofDigitChars 10 (ofScaled d k).digits 0 * 10 ^ z := by
    conv_lhs => rw [← Nat.ofDigitChars_ten_toDigits (n := d), digits, Nat.ofDigitChars_append,
      Nat.ofDigitChars_replicate_zero]
    exact Nat.mul_comm _ _
  refine ⟨⟨fun hnil => ?_, fun c hc => ?_⟩, ?_⟩
  · rw [hnil, Nat.ofDigitChars_nil, Nat.zero_mul] at value
    exact hd.ne' value
  · exact Text.isDigit_of_mem_toDigits (digits ▸ List.mem_append_left _ hc)
  · rw [Digits.value, point, zpow_add₀ (by norm_num), zpow_natCast]
    conv_rhs => rw [value]
    push_cast
    ring

/-! ## Reading -/

/-- A digit is no letter. -/
theorem isAlpha_of_isDigit {c : Char} (h : c.isDigit = true) : c.isAlpha = false := by
  simp only [Char.isDigit, Bool.and_eq_true, decide_eq_true_eq, ge_iff_le,
    UInt32.le_iff_toNat_le] at h
  simp only [Char.isAlpha, Char.isUpper, Char.isLower, Bool.or_eq_false_iff,
    decide_eq_false_iff_not, ge_iff_le, UInt32.le_iff_toNat_le, Bool.and_eq_false_iff]
  simp only [Char.reduceVal, UInt32.reduceToNat] at h ⊢
  omega

/-- A text that begins with a digit is no name. -/
theorem map_toLower_ne {c first : Char} {name : List Char} (h : c.isDigit = true)
    (hname : first.isAlpha = true) : ((c :: cs).map Char.toLower == first :: name) = false := by
  rw [beq_eq_false_iff_ne, List.map_cons]
  intro heq
  have same := congrArg Char.isAlpha (List.cons.inj heq).1
  rw [Char.isAlpha_toLower_eq_isAlpha, isAlpha_of_isDigit h, hname] at same
  cases same

/-- A text that does not begin with a digit. -/
def NoDigitFirst (cs : List Char) : Prop := ∀ c ∈ cs.head?, c.isDigit = false

theorem takeWhile_isDigit (h : ∀ c ∈ whole, c.isDigit = true) (htail : NoDigitFirst tail) :
    (whole ++ tail).takeWhile Char.isDigit = whole := by
  rw [List.takeWhile_append_of_pos h]
  cases tail with
  | nil => simp
  | cons c cs => simp [htail c rfl]

theorem dropWhile_isDigit (h : ∀ c ∈ whole, c.isDigit = true) (htail : NoDigitFirst tail) :
    (whole ++ tail).dropWhile Char.isDigit = tail := by
  rw [List.dropWhile_append_of_pos h]
  cases tail with
  | nil => simp
  | cons c cs => simp [htail c rfl]

variable (whole fraction) in
/-- A text is read by its parts. -/
theorem magnitude?_eq (hwhole : whole ≠ []) (hdigits : ∀ c ∈ whole ++ fraction, c.isDigit = true)
    (htail : NoDigitFirst tail) (hsplit : splitFraction tail = (fraction, rest))
    (hexponent : exponent? rest = some e) :
    magnitude? (whole ++ tail) =
      some (single.nearestDecimal (Nat.ofDigitChars 10 (whole ++ fraction) 0)
        (e - fraction.length)) := by
  obtain ⟨c, cs, rfl⟩ := List.exists_cons_of_ne_nil hwhole
  have first : c.isDigit = true := hdigits c (by simp)
  have digits : ∀ c' ∈ c :: cs, c'.isDigit = true := fun c' hc' =>
    hdigits c' (List.mem_append_left _ hc')
  have number : digits? (c :: cs ++ fraction) =
      some (Nat.ofDigitChars 10 (c :: cs ++ fraction) 0) :=
    Text.digitsFrom?_of_forall_isDigit hdigits 0
  have noName {letter : Char} {name : List Char} (hname : letter.isAlpha = true) :
      ((c :: cs ++ tail).map Char.toLower == letter :: name) = false :=
    map_toLower_ne first hname
  have inf : "inf".toList = ['i', 'n', 'f'] := rfl
  have infinity : "infinity".toList = ['i', 'n', 'f', 'i', 'n', 'i', 't', 'y'] := rfl
  have nan : "nan".toList = ['n', 'a', 'n'] := rfl
  unfold magnitude?
  simp only [takeWhile_isDigit digits htail, dropWhile_isDigit digits htail, hsplit, number,
    hexponent, inf, infinity, nan, noName (show 'i'.isAlpha = true by decide),
    noName (show 'n'.isAlpha = true by decide)]
  rfl

theorem splitFraction_point (h : ∀ c ∈ fraction, c.isDigit = true) (hrest : NoDigitFirst rest) :
    splitFraction ('.' :: (fraction ++ rest)) = (fraction, rest) :=
  Prod.ext (takeWhile_isDigit h hrest) (dropWhile_isDigit h hrest)

theorem noDigitFirst_nil : NoDigitFirst [] := fun _ h => nomatch h

/-- A text with a point and no exponent is read as the digits before and after the point, with as
many places as there are digits after it. -/
theorem magnitude?_point (hwhole : whole ≠ [])
    (hdigits : ∀ c ∈ whole ++ fraction, c.isDigit = true) :
    magnitude? (whole ++ '.' :: fraction) =
      some (single.nearestDecimal (Nat.ofDigitChars 10 (whole ++ fraction) 0)
        (-fraction.length)) := by
  have hfraction : ∀ c ∈ fraction, c.isDigit = true := fun c hc =>
    hdigits c (List.mem_append_right _ hc)
  have split := splitFraction_point hfraction noDigitFirst_nil
  rw [List.append_nil] at split
  have read := magnitude?_eq (e := 0) whole fraction hwhole hdigits
    (fun c hc => by cases hc; decide) split rfl
  rwa [zero_sub] at read

/-- A text is read as a rational number, rounded. -/
def ReadsAs (cs : List Char) (q : ℚ) : Prop :=
  ∃ (n : ℕ) (x : ℤ), magnitude? cs = some (single.nearestDecimal n x) ∧ (n : ℚ) * 10 ^ x = q

theorem isDigit_of_mem_zeros {c : Char} {z : ℕ} (hc : c ∈ List.replicate z '0') :
    c.isDigit = true :=
  List.eq_of_mem_replicate hc ▸ by decide

/-- Zeros before digits change nothing. -/
theorem ofDigitChars_zeros (z : ℕ) (cs : List Char) :
    Nat.ofDigitChars 10 (List.replicate z '0' ++ cs) 0 = Nat.ofDigitChars 10 cs 0 := by
  rw [Nat.ofDigitChars_append, Nat.ofDigitChars_replicate_zero, Nat.mul_zero]

/-- Digits behind the point are read as what they stand for. -/
theorem readsAs_behind_point (h : D.Written) (hpoint : D.point ≤ 0) :
    ReadsAs (['0'] ++ '.' :: (List.replicate (-D.point).toNat '0' ++ D.digits)) D.value := by
  refine ⟨_, _, magnitude?_point (List.cons_ne_nil _ _) fun c hc => ?_, ?_⟩
  · rcases List.mem_append.1 hc with hc | hc
    · exact isDigit_of_mem_zeros (z := 1) hc
    · exact (List.mem_append.1 hc).elim isDigit_of_mem_zeros (h.isDigit c)
  · have zero : ['0'] = List.replicate 1 '0' := rfl
    rw [zero, ofDigitChars_zeros, ofDigitChars_zeros, Digits.value, List.length_append,
      List.length_replicate]
    congr 2
    omega

/-- So are digits around the point. -/
theorem readsAs_around_point (h : D.Written) (hpoint : 0 < D.point.toNat)
    (hlength : D.point.toNat < D.digits.length) :
    ReadsAs (D.digits.take D.point.toNat ++ '.' :: D.digits.drop D.point.toNat) D.value := by
  have whole : D.digits.take D.point.toNat ≠ [] := by
    rw [Ne, List.take_eq_nil_iff]
    exact not_or.2 ⟨hpoint.ne', h.nonempty⟩
  refine ⟨_, _, magnitude?_point whole (by rw [List.take_append_drop]; exact h.isDigit), ?_⟩
  rw [List.take_append_drop, List.length_drop, Digits.value]
  congr 2
  omega

/-- So are digits before the point. -/
theorem readsAs_before_point (h : D.Written) (hpoint : 0 < D.point.toNat)
    (hlength : D.digits.length ≤ D.point.toNat) :
    ReadsAs (D.digits ++ List.replicate (D.point.toNat - D.digits.length) '0' ++ '.' :: ['0'])
      D.value := by
  refine ⟨_, _, magnitude?_point ?_ fun c hc => ?_, ?_⟩
  · exact List.append_ne_nil_of_left_ne_nil h.nonempty _
  · rcases List.mem_append.1 hc with hc | hc
    · exact (List.mem_append.1 hc).elim (h.isDigit c) isDigit_of_mem_zeros
    · exact isDigit_of_mem_zeros (z := 1) hc
  · have zero : ['0'] = List.replicate 1 '0' := rfl
    have places : D.point - D.digits.length = (D.point.toNat - D.digits.length : ℕ) := by omega
    rw [zero, List.append_assoc, List.replicate_append_replicate, Nat.ofDigitChars_append,
      Nat.ofDigitChars_replicate_zero, Digits.value, places, zpow_natCast, List.length_replicate,
      Nat.pow_succ]
    push_cast
    rw [zpow_neg, zpow_one]
    field_simp

/-- Digits in positional notation are read as what they stand for. -/
theorem readsAs_positional (h : D.Written) : ReadsAs (positional D) D.value := by
  unfold positional
  split
  next hpoint => exact readsAs_behind_point h hpoint
  next hpoint =>
    have positive : 0 < D.point.toNat := by omega
    dsimp only
    rcases Nat.lt_or_ge D.point.toNat D.digits.length with hlt | hge
    · have fraction : (D.digits.drop D.point.toNat).isEmpty = false := by
        rw [List.isEmpty_eq_false_iff, Ne, List.drop_eq_nil_iff]
        omega
      rw [fraction, Nat.sub_eq_zero_of_le hlt.le, List.replicate_zero, List.append_nil]
      exact readsAs_around_point h positive hlt
    · have fraction : (D.digits.drop D.point.toNat).isEmpty = true := by
        rw [List.isEmpty_iff, List.drop_eq_nil_iff]
        exact hge
      rw [fraction, List.take_of_length_le hge]
      exact readsAs_before_point h positive hge

/-! ## Exponents -/

/-- A text that begins with a digit has no sign. -/
theorem splitSign_of_isDigit {c : Char} (h : c.isDigit = true) :
    splitSign (c :: cs) = (false, c :: cs) := by
  unfold splitSign
  split
  · next heq =>
    rw [(List.cons.inj heq).1] at h
    cases h
  · rw [Text.dropPlus_of_isDigit cs h]

/-- The sign of an exponent, and its digits. -/
theorem splitSign_exponent (plusSign : Bool) (e : ℤ) :
    splitSign ((if e < 0 then ['-'] else if plusSign then ['+'] else []) ++
      Nat.toDigits 10 e.natAbs) = (decide (e < 0), Nat.toDigits 10 e.natAbs) := by
  split
  next hneg => exact Prod.ext (decide_eq_true hneg).symm rfl
  next hnonneg =>
    rw [decide_eq_false hnonneg]
    cases plusSign with
    | true => rfl
    | false =>
      obtain ⟨c, cs, hcs, digit⟩ := Text.exists_toDigits_eq_cons e.natAbs
      rw [hcs]
      exact splitSign_of_isDigit digit

/-- An exponent is read as it is. -/
theorem exponent?_text (plusSign : Bool) (e : ℤ) :
    exponent? ('e' :: ((if e < 0 then ['-'] else if plusSign then ['+'] else []) ++
      Nat.toDigits 10 e.natAbs)) = some e := by
  simp only [exponent?, BEq.rfl, Bool.true_or, if_true, splitSign_exponent, Text.digits?_toDigits,
    decide_eq_true_eq]
  show some (if e < 0 then -(e.natAbs : ℤ) else (e.natAbs : ℤ)) = some e
  congr 1
  split <;> omega

/-- Digits with an exponent are read as what they stand for. -/
theorem readsAs_scientific (plusSign : Bool) (h : D.Written) :
    ReadsAs (scientific plusSign D) D.value := by
  have letter {text : List Char} : NoDigitFirst ('e' :: text) := fun c hc => by
    cases hc
    decide
  have value : D.value = Nat.ofDigitChars 10 D.digits 0 * 10 ^ (D.point - D.digits.length) := rfl
  have digits := h.isDigit
  unfold scientific
  dsimp only
  rcases hD : D.digits with _ | ⟨first, _ | ⟨second, others⟩⟩ <;> rw [hD] at value digits
  · exact absurd hD h.nonempty
  · refine ⟨_, _, magnitude?_eq [first] [] (List.cons_ne_nil _ _) digits letter rfl
      (exponent?_text plusSign (D.point - 1)), ?_⟩
    rw [value, List.append_nil, List.length_nil, List.length_singleton, Nat.cast_zero, sub_zero,
      Nat.cast_one]
  · have fraction : ∀ c ∈ second :: others, c.isDigit = true := fun c hc =>
      digits c (List.mem_cons_of_mem _ hc)
    have read := magnitude?_eq [first] (second :: others) (List.cons_ne_nil _ _) digits
      (fun c hc => by cases hc; decide) (splitFraction_point fraction letter)
      (exponent?_text plusSign (D.point - 1))
    refine ⟨Nat.ofDigitChars 10 ([first] ++ second :: others) 0,
      D.point - 1 - (second :: others).length, ?_, ?_⟩
    · rw [List.append_assoc]
      exact read
    · rw [value]
      congr 2
      push_cast [List.length_cons]
      ring

/-- However digits are laid out, they are read as what they stand for. -/
theorem readsAs_magnitude (l : Layout) (h : D.Written) : ReadsAs (l.magnitude D) D.value := by
  unfold Layout.magnitude
  dsimp only
  split
  · exact readsAs_positional h
  · exact readsAs_scientific l.plusSign h

/-- The text of a positive number begins with a digit. -/
theorem exists_digit_magnitude (l : Layout) (h : D.Written) :
    ∃ c cs, l.magnitude D = c :: cs ∧ c.isDigit = true := by
  obtain ⟨first, others, hD⟩ := List.exists_cons_of_ne_nil h.nonempty
  have digit : first.isDigit = true := h.isDigit first (hD ▸ List.mem_cons_self)
  unfold Layout.magnitude
  dsimp only
  split
  · unfold positional
    split
    · exact ⟨_, _, rfl, by decide⟩
    next hpoint =>
      obtain ⟨n, hn⟩ : ∃ n, D.point.toNat = n + 1 := ⟨D.point.toNat - 1, by omega⟩
      rw [hD, hn]
      exact ⟨first, _, rfl, digit⟩
  · unfold scientific
    rw [hD]
    cases others with
    | nil => exact ⟨first, _, rfl, digit⟩
    | cons => exact ⟨first, _, rfl, digit⟩

/-! ## Rounding back -/

/-- A number has as many digits as the power of ten above it has zeros. -/
theorem digits_bounds (hn : 0 < n) :
    10 ^ ((Nat.toDigits 10 n).length - 1) ≤ n ∧ n < 10 ^ (Nat.toDigits 10 n).length := by
  have positive : 0 < (Nat.toDigits 10 n).length := Nat.length_toDigits_pos
  refine ⟨?_, (Nat.length_toDigits_le_iff (by decide) positive).1 le_rfl⟩
  rcases Nat.eq_zero_or_pos ((Nat.toDigits 10 n).length - 1) with one | more
  · rwa [one]
  · exact not_lt.1 fun hlt => by
      have := (Nat.length_toDigits_le_iff (by decide) more).2 hlt
      omega

/-- A scaled number lies between the powers of ten around its first digit. -/
theorem scaled_bounds (hn : 0 < n) (x : ℤ) :
    (10 : ℚ) ^ (x + (Nat.toDigits 10 n).length - 1) ≤ n * 10 ^ x ∧
      (n : ℚ) * 10 ^ x < 10 ^ (x + (Nat.toDigits 10 n).length) := by
  obtain ⟨lower, upper⟩ := digits_bounds hn
  have positive : 0 < (Nat.toDigits 10 n).length := Nat.length_toDigits_pos
  have ten : (0 : ℚ) < 10 ^ x := zpow_pos (by norm_num) x
  have exponent :
      x + (Nat.toDigits 10 n).length - 1 = ((Nat.toDigits 10 n).length - 1 : ℕ) + x := by omega
  rw [exponent, add_comm x, zpow_add₀ (by norm_num), zpow_add₀ (by norm_num), zpow_natCast,
    zpow_natCast, mul_le_mul_iff_left₀ ten, mul_lt_mul_iff_left₀ ten]
  exact ⟨by exact_mod_cast lower, by exact_mod_cast upper⟩

/-- What is in the cell of a number is neither too small nor too large to be written. -/
theorem Cell.Contains.range (h : Placed m e) (hm : 0 < m)
    (hq : (Cell.ofFinite single m e).Contains q) : 2 ^ (-150 : ℤ) ≤ q ∧ q < 2 ^ (128 : ℤ) := by
  obtain ⟨⟨lower, upper⟩, -⟩ := hq.steps h
  have step := Single.two_zpow_pos e
  have least := h.least
  have greatest := h.greatest
  have one : (1 : ℚ) ≤ m := Nat.one_le_cast.2 hm
  have largest := h.significand_le
  rw [le_div_iff₀ step] at lower
  constructor
  · calc (2 : ℚ) ^ (-150 : ℤ) ≤ 2 ^ (e - 1) := Single.two_zpow_le (by omega)
      _ = 1 / 2 * 2 ^ e := by
        rw [zpow_sub₀ two_ne_zero]
        ring
      _ ≤ (m - 1 / 2) * 2 ^ e := by gcongr; linarith
      _ ≤ q := lower
  · calc q < 2 ^ ((24 : ℕ) + e) := (lt_two_zpow_iff 24).2 (by linarith)
      _ ≤ 2 ^ (128 : ℤ) := Single.two_zpow_le (by omega)

/-- What is in the cell of a number is rounded to the number, also where it is written with an
exponent. -/
theorem nearestDecimal_eq_pattern (h : Placed m e) (hm : 0 < m)
    (hq : (Cell.ofFinite single m e).Contains (n * 10 ^ x)) :
    single.nearestDecimal n x = pattern m e := by
  have positive : 0 < n :=
    Nat.cast_pos.1 ((mul_pos_iff_of_pos_right (zpow_pos (by norm_num) x)).1 (hq.pos hm))
  obtain ⟨lower, upper⟩ := scaled_bounds positive x
  obtain ⟨small, large⟩ := hq.range h hm
  have notLarge : ¬x + (Nat.toDigits 10 n).length > 400 := fun hlarge => by
    refine absurd large (not_lt.2 (le_trans ?_ lower))
    calc (2 : ℚ) ^ (128 : ℤ) ≤ 10 ^ (39 : ℤ) := by norm_num
      _ ≤ 10 ^ (x + (Nat.toDigits 10 n).length - 1) := zpow_le_zpow_right₀ (by norm_num) (by omega)
  have notSmall : ¬x + (Nat.toDigits 10 n).length < -400 := fun hsmall => by
    refine absurd small (not_le.2 (upper.trans_le ?_))
    calc (10 : ℚ) ^ (x + (Nat.toDigits 10 n).length) ≤ 10 ^ (-46 : ℤ) :=
          zpow_le_zpow_right₀ (by norm_num) (by omega)
      _ ≤ 2 ^ (-150 : ℤ) := by norm_num
  unfold Format.nearestDecimal
  simp only [if_neg positive.ne', if_neg notLarge, if_neg notSmall]
  refine hq.nearest_eq h hm (by positivity) (by positivity) ?_
  rw [zpow_eq_div (by norm_num) x]
  push_cast
  ring

/-! ## Characters -/

/-- Whether a character may be in the text of a number. -/
def isNumeric (c : Char) : Bool := c.isDigit || c ∈ ['.', 'e', '-', '+']

theorem isNumeric_of_isDigit {c : Char} (h : c.isDigit = true) : isNumeric c = true := by
  rw [isNumeric, h, Bool.true_or]

section Digits

variable {c : Char} (hD : ∀ c ∈ D.digits, c.isDigit = true)

include hD

/-- Positional notation puts a point and zeros to the digits. -/
theorem isNumeric_of_mem_positional (h : c ∈ positional D) : isNumeric c = true := by
  have digit (hc : c ∈ D.digits) : isNumeric c = true := isNumeric_of_isDigit (hD c hc)
  have zeros {z : ℕ} (hc : c ∈ List.replicate z '0') : isNumeric c = true :=
    isNumeric_of_isDigit (isDigit_of_mem_zeros hc)
  unfold positional at h
  split at h
  · simp only [List.cons_append, List.mem_cons, List.mem_append] at h
    rcases h with rfl | rfl | h | h
    · decide
    · decide
    · exact zeros h
    · exact digit h
  · simp only [List.mem_cons, List.mem_append] at h
    rcases h with (h | h) | rfl | h
    · exact digit (List.mem_of_mem_take h)
    · exact zeros h
    · decide
    · split at h
      · exact zeros (z := 1) h
      · exact digit (List.mem_of_mem_drop h)

/-- An exponent has a letter, a sign and digits of its own. -/
theorem isNumeric_of_mem_scientific {plusSign : Bool} (h : c ∈ scientific plusSign D) :
    isNumeric c = true := by
  have digit (hc : c ∈ D.digits) : isNumeric c = true := isNumeric_of_isDigit (hD c hc)
  unfold scientific at h
  simp only [List.mem_cons, List.mem_append] at h
  rcases h with (h | rfl | h) | h
  · split at h
    · next first second rest heq =>
      rw [heq] at digit
      simp only [List.mem_cons] at h digit
      rcases h with h | rfl | h | h
      · exact digit (.inl h)
      · decide
      · exact digit (.inr (.inl h))
      · exact digit (.inr (.inr h))
    · exact digit h
  · decide
  · split at h
    · rw [List.mem_singleton.1 h]
      decide
    · split at h
      · rw [List.mem_singleton.1 h]
        decide
      · cases h
  · exact isNumeric_of_isDigit (Text.isDigit_of_mem_toDigits h)

theorem Layout.isNumeric_of_mem_magnitude {l : Layout} (h : c ∈ l.magnitude D) :
    isNumeric c = true := by
  unfold Layout.magnitude at h
  dsimp only at h
  split at h
  · exact isNumeric_of_mem_positional hD h
  · exact isNumeric_of_mem_scientific hD h

end Digits

/-- The text of a finite number has numeric characters only. -/
theorem Layout.isNumeric_of_mem_single (l : Layout) {x : Float32} (hx : x.isFinite = true) :
    ∀ c ∈ (l.single x).toList, isNumeric c = true := by
  obtain ⟨negative, m, e, hcontent⟩ := Single.isFinite_iff.1 hx
  have placed := (Single.toBits_of_finite hcontent).2
  rw [Layout.single, hcontent, Layout.text]
  split
  · split <;> exact List.all_eq_true.1 (by decide)
  next hm =>
    obtain ⟨d, k, hdigits, hd, -⟩ := shortest_spec placed (Nat.pos_of_ne_zero hm) l.tie
    have digits := (Digits.ofScaled_spec hd k).1.isDigit
    intro c hc
    rw [hdigits, String.toList_ofList] at hc
    split at hc
    · rcases List.mem_cons.1 hc with rfl | hc
      · decide
      · exact isNumeric_of_mem_magnitude digits hc
    · exact isNumeric_of_mem_magnitude digits hc

/-! ## Main result -/

/-- A sign is read apart from what begins with a digit. -/
theorem single?_signed {c : Char} (negative : Bool) (hc : c.isDigit = true)
    (hread : magnitude? (c :: cs) = some n) :
    Text.single? (if negative then '-' :: c :: cs else c :: cs) =
      some (.ofBits (single.withSign negative n).toUInt32) := by
  have sign : splitSign (if negative then '-' :: c :: cs else c :: cs) = (negative, c :: cs) := by
    cases negative with
    | true => rfl
    | false => exact splitSign_of_isDigit hc
  simp only [Text.single?, sign, hread, Option.map_some]

/-- A finite number is read back from its text, if zero keeps its sign. -/
theorem Layout.single?_single (l : Layout) (hl : l.signedZero = true) {x : Float32}
    (hx : x.isFinite = true) : Text.single? (l.single x).toList = some x := by
  obtain ⟨negative, m, e, hcontent⟩ := Single.isFinite_iff.1 hx
  obtain ⟨bits, placed⟩ := Single.toBits_of_finite hcontent
  have word : Float32.ofBits (Binary.single.withSign negative (pattern m e)).toUInt32 = x := by
    rw [← bits, Nat.toUInt32_eq, UInt32.ofNat_toNat, Float32.ofBits_toBits]
  rw [Layout.single, hcontent, Layout.text]
  rcases Nat.eq_zero_or_pos m with rfl | hm
  · have least : e = -149 := placed.full.resolve_left (by decide)
    subst least
    have zero : magnitude? ['0', '.', '0'] = some (pattern 0 (-149)) := by decide
    have text : (if negative then "-0.0" else "0.0").toList =
        if negative then ['-', '0', '.', '0'] else ['0', '.', '0'] := by cases negative <;> rfl
    rw [if_pos rfl, hl, Bool.and_true, text, single?_signed negative (by decide) zero, word]
  · obtain ⟨d, k, hdigits, hd, hcell⟩ := shortest_spec placed hm l.tie
    obtain ⟨written, value⟩ := Digits.ofScaled_spec hd k
    obtain ⟨n, y, hread, hvalue⟩ := readsAs_magnitude l written
    rw [value] at hvalue
    have nearest := nearestDecimal_eq_pattern placed hm (hvalue ▸ hcell)
    obtain ⟨c, cs, htext, hc⟩ := exists_digit_magnitude l written
    rw [nearest, htext] at hread
    rw [if_neg hm.ne', hdigits, String.toList_ofList, htext, single?_signed negative hc hread, word]

end Candela.Decimal
