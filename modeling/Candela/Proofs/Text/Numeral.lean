import Candela.Text.Numeral

/-!
# Numerals of counts

A count that is written in decimal is read back (`count?_toString`), and so is a 32-bit word
(`word?_toString`).
-/

namespace Candela.Text

/-- Digits are read as the number that they make up. -/
theorem digitsFrom?_of_forall_isDigit {cs : List Char} (h : ∀ c ∈ cs, c.isDigit = true)
    (value : Nat) : digitsFrom? value cs = some (Nat.ofDigitChars 10 cs value) := by
  induction cs generalizing value with
  | nil => rfl
  | cons c rest ih =>
    obtain ⟨hc, hrest⟩ := List.forall_mem_cons.1 h
    rw [digitsFrom?, if_pos hc, ih hrest]
    rfl

/-- The digits of a number are digits. -/
theorem isDigit_of_mem_toDigits {n : Nat} {c : Char} (h : c ∈ Nat.toDigits 10 n) :
    c.isDigit = true :=
  Nat.isDigit_of_mem_toDigits (by decide) (by decide) h

/-- The digits of a number read back. -/
theorem digits?_toDigits (n : Nat) : digits? (Nat.toDigits 10 n) = some n := by
  unfold digits?
  split
  · next hnil => exact absurd hnil (by simp)
  · rw [digitsFrom?_of_forall_isDigit (fun c hc => isDigit_of_mem_toDigits hc) 0,
      Nat.ofDigitChars_ten_toDigits]

/-- A number that is written without a sign begins with a digit. -/
theorem exists_toDigits_eq_cons (n : Nat) :
    ∃ c cs, Nat.toDigits 10 n = c :: cs ∧ c.isDigit = true := by
  obtain ⟨c, cs, hcs⟩ := List.exists_cons_of_ne_nil (Nat.toDigits_ne_nil (n := n) (b := 10))
  exact ⟨c, cs, hcs, isDigit_of_mem_toDigits (hcs ▸ List.mem_cons_self)⟩

/-- What begins with a digit has no sign to be dropped. -/
theorem dropPlus_of_isDigit {c : Char} (cs : List Char) (h : c.isDigit = true) :
    dropPlus (c :: cs) = c :: cs := by
  unfold dropPlus
  split
  · next heq =>
    rw [(List.cons.inj heq).1] at h
    cases h
  · rfl

theorem dropPlus_toDigits (n : Nat) : dropPlus (Nat.toDigits 10 n) = Nat.toDigits 10 n := by
  obtain ⟨c, cs, hcs, digit⟩ := exists_toDigits_eq_cons n
  rw [hcs, dropPlus_of_isDigit cs digit]

/-- A count below the bound is read back. -/
theorem count?_toString {bound n : Nat} (h : n < bound) :
    count? bound (toString n).toList = some n := by
  have hdigits : (toString n).toList = Nat.toDigits 10 n := by
    rw [Nat.toString_eq_ofList_toDigits, String.toList_ofList]
  rw [hdigits, count?, dropPlus_toDigits, digits?_toDigits]
  exact if_pos h

/-- A word is read back. -/
theorem word?_toString (w : UInt32) : word? (toString w.toNat).toList = some w := by
  rw [word?, count?_toString w.toNat_lt, Option.map_some, Nat.toUInt32_eq, UInt32.ofNat_toNat]

end Candela.Text
