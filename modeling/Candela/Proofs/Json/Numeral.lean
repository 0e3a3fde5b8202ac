import Mathlib
import Candela.Json.Reader
import Candela.Proofs.Decimal.Reading

/-!
# Numbers of JSON text

A number of JSON text has digits before the point, of which the first is no zero unless it stands
alone, digits after it, and an exponent (`Numeral`). It is read up to where it ends
(`Numeral.magnitude?_text`). Natural numbers are such numbers (`Numeral.ofNat`), and so is what is
printed for a positive real one, however its digits are laid out (`exists_numeral`).
-/

namespace Candela.Json

open Decimal (NoDigitFirst takeWhile_isDigit dropWhile_isDigit Digits Layout)

variable {whole fraction tail rest cs : List Char} {c : Char} {j : Json} {n : Nat} {e : Int}

/-! ## Where a value ends -/

/-- A text that does not go on with a number. -/
def Ends (rest : List Char) : Prop :=
  ∀ c ∈ rest.head?, c.isDigit = false ∧ c ≠ '.' ∧ c ≠ 'e' ∧ c ≠ 'E'

theorem Ends.noDigitFirst (h : Ends rest) : NoDigitFirst rest := fun c hc => (h c hc).1

theorem ends_nil : Ends [] := fun _ h => nomatch h

/-! ## Parts of numbers -/

theorem spanDigits_append (h : ∀ c ∈ whole, c.isDigit = true) (htail : NoDigitFirst tail) :
    spanDigits (whole ++ tail) = (whole, tail) := by
  rw [spanDigits, List.span_eq_takeWhile_dropWhile, takeWhile_isDigit h htail,
    dropWhile_isDigit h htail]

theorem digits?_append (hne : whole ≠ []) (h : ∀ c ∈ whole, c.isDigit = true)
    (htail : NoDigitFirst tail) : digits? (whole ++ tail) = some (whole, tail) := by
  obtain ⟨c, cs, rfl⟩ := List.exists_cons_of_ne_nil hne
  rw [digits?, spanDigits_append h htail]

/-- Whole digits are read, if no zero stands before others. -/
theorem wholeDigits?_append (hne : whole ≠ []) (h : ∀ c ∈ whole, c.isDigit = true)
    (hzero : whole.head? = some '0' → whole = ['0']) (htail : NoDigitFirst tail) :
    wholeDigits? (whole ++ tail) = some (whole, tail) := by
  rw [wholeDigits?, digits?_append hne h htail]
  split
  · next second others rest heq =>
    obtain ⟨rfl, -⟩ := Prod.ext_iff.1 (Option.some.inj heq)
    cases hzero rfl
  · rfl

theorem fraction?_of_ends (h : Ends rest) : fraction? rest = some (none, rest) := by
  cases rest with
  | nil => rfl
  | cons c cs =>
    unfold fraction?
    split
    · next heq => exact absurd (List.cons.inj heq).1 (h c rfl).2.1
    · rfl

theorem exponent?_of_ends (h : Ends rest) : exponent? rest = some (none, rest) := by
  cases rest with
  | nil => rfl
  | cons c cs =>
    obtain ⟨-, -, small, capital⟩ := h c rfl
    unfold exponent?
    exact if_neg (not_or.2 ⟨small, capital⟩)

/-- The text of an exponent. -/
def exponentText (plusSign : Bool) (e : Int) : List Char :=
  'e' :: ((if e < 0 then ['-'] else if plusSign then ['+'] else []) ++ Nat.toDigits 10 e.natAbs)

theorem naturalOf_eq (cs : List Char) : naturalOf cs = Nat.ofDigitChars 10 cs 0 := by
  unfold naturalOf Nat.ofDigitChars
  congr 1
  funext value c
  rw [Nat.mul_comm]
  rfl

/-- The digits of a whole number are read as an exponent. -/
theorem exponentDigits?_toDigits (negative : Bool) (n : Nat) (h : Ends rest) :
    exponentDigits? negative (Nat.toDigits 10 n ++ rest) =
      some (some (if negative then -(n : Int) else n), rest) := by
  rw [exponentDigits?, digits?_append Nat.toDigits_ne_nil
    (fun c hc => Text.isDigit_of_mem_toDigits hc) h.noDigitFirst, Option.map_some]
  dsimp only
  rw [naturalOf_eq, Nat.ofDigitChars_ten_toDigits]

/-- An exponent may do without a sign. -/
theorem exponent?_of_isDigit (hc : c.isDigit = true) (cs : List Char) :
    exponent? ('e' :: c :: cs) = exponentDigits? false (c :: cs) := by
  have noSign {sign : Char} (hsign : sign.isDigit = false) : c ≠ sign := by
    rintro rfl
    rw [hc] at hsign
    cases hsign
  unfold exponent?
  refine (if_pos (Or.inl rfl)).trans ?_
  split
  · next heq => exact absurd (List.cons.inj heq).1 (noSign (by decide))
  · next heq => exact absurd (List.cons.inj heq).1 (noSign (by decide))
  · rfl

theorem exponent?_text (plusSign : Bool) (e : Int) (h : Ends rest) :
    exponent? (exponentText plusSign e ++ rest) = some (some e, rest) := by
  have read (negative : Bool) := exponentDigits?_toDigits negative e.natAbs h
  unfold exponentText
  rw [List.cons_append, List.append_assoc]
  rcases lt_or_ge e 0 with hneg | hnonneg
  · have value : (if true then -(e.natAbs : ℤ) else e.natAbs) = e := by
      rw [if_pos rfl, Int.ofNat_natAbs_of_nonpos hneg.le, neg_neg]
    rw [if_pos hneg]
    exact (read true).trans (by rw [value])
  · have value : (if false then -(e.natAbs : ℤ) else e.natAbs) = e := Int.natAbs_of_nonneg hnonneg
    rw [if_neg (Int.not_lt.2 hnonneg)]
    cases plusSign with
    | true => exact (read false).trans (by rw [value])
    | false =>
      obtain ⟨c, cs, hcs, digit⟩ := Text.exists_toDigits_eq_cons e.natAbs
      refine Eq.trans ?_ ((read false).trans (by rw [value]))
      rw [hcs]
      exact exponent?_of_isDigit digit _

/-! ## Numbers -/

/-- A number as JSON text has it. -/
structure Numeral where
  /-- The digits before the point. -/
  whole : List Char
  /-- The digits after the point, if there is one. -/
  fraction : Option (List Char)
  /-- The exponent, if there is one. -/
  exponent : Option Int
  nonempty : whole ≠ []
  isDigit : ∀ c ∈ whole ++ fraction.getD [], c.isDigit = true
  /-- A zero stands alone before the point. -/
  alone : whole.head? = some '0' → whole = ['0']
  places : fraction ≠ some []

namespace Numeral

/-- The text of a number. -/
def text (plusSign : Bool) (N : Numeral) : List Char :=
  N.whole ++ ((N.fraction.map ('.' :: ·)).getD [] ++
    (N.exponent.map (exponentText plusSign)).getD [])

/-- What a number is read as. -/
def json (negative : Bool) (N : Numeral) : Json :=
  match Number.ofParts? negative N.whole N.fraction N.exponent with
  | some n => .number n
  | none => .unreadable

theorem magnitude?_text (negative plusSign : Bool) (N : Numeral) (h : Ends rest) :
    magnitude? negative (N.text plusSign ++ rest) = some (N.json negative, rest) := by
  obtain ⟨whole, fraction, exponent, nonempty, digit, alone, places⟩ := N
  obtain ⟨tail, htail⟩ : ∃ tail, (exponent.map (exponentText plusSign)).getD [] ++ rest = tail :=
    ⟨_, rfl⟩
  have behind : NoDigitFirst tail ∧ fraction? tail = some (none, tail) ∧
      exponent? tail = some (exponent, rest) := by
    subst htail
    cases exponent with
    | none => exact ⟨h.noDigitFirst, fraction?_of_ends h, exponent?_of_ends h⟩
    | some e => exact ⟨fun c hc => by cases hc; rfl, rfl, exponent?_text plusSign e h⟩
  obtain ⟨noDigit, noPoint, readExponent⟩ := behind
  have readFraction : NoDigitFirst ((fraction.map ('.' :: ·)).getD [] ++ tail) ∧
      fraction? ((fraction.map ('.' :: ·)).getD [] ++ tail) = some (fraction, tail) := by
    cases fraction with
    | none => exact ⟨noDigit, noPoint⟩
    | some fraction =>
      refine ⟨fun c hc => by cases hc; rfl, ?_⟩
      have digits := digits?_append (fun hnil => places (congrArg some hnil))
        (fun c hc => digit c (List.mem_append_right _ hc)) noDigit
      show (digits? (fraction ++ tail)).map _ = _
      rw [digits]
      rfl
  have readWhole := wholeDigits?_append nonempty
    (fun c hc => digit c (List.mem_append_left _ hc)) alone readFraction.1
  unfold text magnitude?
  dsimp only
  rw [List.append_assoc, List.append_assoc, htail, readWhole]
  simp only [Option.bind_eq_bind, Option.bind_some, readFraction.2, readExponent]
  rfl

end Numeral

/-- No zero is in front of the digits of a positive number. -/
theorem head?_toDigits (hn : 0 < n) : (Nat.toDigits 10 n).head? ≠ some '0' := by
  induction n using Nat.strongRecOn with
  | _ n ih =>
    rcases lt_or_ge n 10 with hlt | hge
    · rw [Nat.toDigits_of_lt_base hlt]
      interval_cases n <;> decide
    · rw [Nat.toDigits_of_base_le (by decide) hge,
        List.head?_append_of_ne_nil _ Nat.toDigits_ne_nil]
      exact ih (n / 10) (by omega) (by omega)

/-- A whole number without a point. -/
def Numeral.ofNat (n : Nat) : Numeral where
  whole := Nat.toDigits 10 n
  fraction := none
  exponent := none
  nonempty := Nat.toDigits_ne_nil
  isDigit c hc := Text.isDigit_of_mem_toDigits (by simpa using hc)
  alone h := by
    rcases Nat.eq_zero_or_pos n with rfl | hn
    · rfl
    · exact absurd h (head?_toDigits hn)
  places := nofun

/-- Zero with a point. -/
def Numeral.zero : Numeral where
  whole := ['0']
  fraction := some ['0']
  exponent := none
  nonempty := List.cons_ne_nil _ _
  isDigit _ hc := Decimal.isDigit_of_mem_zeros (z := 2) hc
  alone _ := rfl
  places := nofun

theorem le_ofDigitChars (cs : List Char) (n : Nat) : n ≤ Nat.ofDigitChars 10 cs n := by
  induction cs generalizing n with
  | nil => exact le_rfl
  | cons c cs ih =>
    rw [Nat.ofDigitChars_cons]
    exact le_trans (by omega) (ih _)

/-- Digits are appended as long as they fit. -/
theorem appendDigits_of_lt (cs : List Char) (n : Nat) (h : Nat.ofDigitChars 10 cs n < 2 ^ 64) :
    appendDigits n cs = (Nat.ofDigitChars 10 cs n, []) := by
  induction cs generalizing n with
  | nil => rfl
  | cons c cs ih =>
    rw [Nat.ofDigitChars_cons, Nat.mul_comm 10 n] at h ⊢
    unfold appendDigits
    exact (if_neg (not_le.2 ((le_ofDigitChars cs _).trans_lt h))).trans (ih _ h)

theorem Numeral.json_ofNat (h : n < 2 ^ 64) : (ofNat n).json false = .number (.integer n) := by
  have digits : appendDigits 0 (Nat.toDigits 10 n) = (n, []) := by
    have read := appendDigits_of_lt (Nat.toDigits 10 n) 0
    rw [Nat.ofDigitChars_ten_toDigits] at read
    exact read h
  unfold json ofNat Number.ofParts?
  dsimp only
  rw [digits]
  rfl

section Layouts

variable {D : Digits} (h : D.Written) (hfirst : D.digits.head? ≠ some '0')

include h

/-- Digits with an exponent. -/
theorem exists_numeral_scientific (plusSign : Bool) :
    ∃ N : Numeral, N.text plusSign = Decimal.scientific plusSign D := by
  obtain ⟨first, others, hD⟩ := List.exists_cons_of_ne_nil h.nonempty
  have digit := h.isDigit
  rw [hD] at digit
  cases others with
  | nil =>
    refine ⟨⟨[first], none, some (D.point - 1), List.cons_ne_nil _ _, digit, ?_, nofun⟩, ?_⟩
    · intro hzero
      rw [Option.some.inj hzero]
    · unfold Decimal.scientific
      rw [hD]
      rfl
  | cons second others =>
    refine ⟨⟨[first], some (second :: others), some (D.point - 1), List.cons_ne_nil _ _, digit, ?_,
      nofun⟩, ?_⟩
    · intro hzero
      rw [Option.some.inj hzero]
    · unfold Decimal.scientific Numeral.text exponentText
      rw [hD]
      simp

include hfirst

/-- Digits with a point. -/
theorem exists_numeral_positional (plusSign : Bool) :
    ∃ N : Numeral, N.text plusSign = Decimal.positional D := by
  have zeros {z : ℕ} {c : Char} (hc : c ∈ List.replicate z '0') : c.isDigit = true :=
    Decimal.isDigit_of_mem_zeros hc
  unfold Decimal.positional
  split
  next hpoint =>
    refine ⟨⟨['0'], some (List.replicate (-D.point).toNat '0' ++ D.digits), none,
      List.cons_ne_nil _ _, fun c hc => ?_, fun _ => rfl, fun hnil => ?_⟩, ?_⟩
    · rcases List.mem_append.1 hc with hc | hc
      · exact zeros (z := 1) hc
      · exact (List.mem_append.1 hc).elim zeros (h.isDigit c)
    · exact h.nonempty (List.append_eq_nil_iff.1 (Option.some.inj hnil)).2
    · exact congrArg _ (List.append_nil _)
  next hpoint =>
    obtain ⟨first, others, hD⟩ := List.exists_cons_of_ne_nil h.nonempty
    obtain ⟨places, hplaces⟩ : ∃ places, D.point.toNat = places + 1 :=
      ⟨D.point.toNat - 1, by omega⟩
    dsimp only
    refine ⟨⟨D.digits.take D.point.toNat ++ List.replicate (D.point.toNat - D.digits.length) '0',
      some (if (D.digits.drop D.point.toNat).isEmpty then ['0'] else D.digits.drop D.point.toNat),
      none, ?_, fun c hc => ?_, fun hzero => ?_, fun hnil => ?_⟩, ?_⟩
    · rw [hD, hplaces]
      exact List.cons_ne_nil _ _
    · rcases List.mem_append.1 hc with hc | hc
      · exact (List.mem_append.1 hc).elim (fun hc => h.isDigit c (List.mem_of_mem_take hc)) zeros
      · rw [Option.getD_some] at hc
        split at hc
        · exact zeros (z := 1) hc
        · exact h.isDigit c (List.mem_of_mem_drop hc)
    · rw [hD] at hfirst
      rw [hD, hplaces] at hzero
      exact absurd hzero hfirst
    · have hnil := Option.some.inj hnil
      split at hnil
      · cases hnil
      next hne => exact hne (List.isEmpty_iff.2 hnil)
    · exact congrArg _ (List.append_nil _)

/-- However the digits of a positive number are laid out, they are a number of JSON text. -/
theorem exists_numeral (l : Layout) : ∃ N : Numeral, N.text l.plusSign = l.magnitude D := by
  unfold Layout.magnitude
  dsimp only
  split
  · exact exists_numeral_positional h hfirst l.plusSign
  · exact exists_numeral_scientific h l.plusSign

end Layouts

end Candela.Json
