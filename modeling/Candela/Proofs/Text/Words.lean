import Mathlib.Data.List.TakeWhile
import Candela.Text.Words

/-!
# Lines and words of texts that are put together

Text that is written in UTF-8 is read back (`decode?_encode`). Only a line feed is written with the
byte of a line feed (`notMem_encode`), so bytes can be cut into lines before they are read as text.

A text that ends with a line feed has its own lines, whatever comes after it
(`lines_append_newline`), and text without a line feed is one line once it is ended
(`lines_line`).

A blank ends a word, so the words of two texts with a blank between them are those of both
(`words_append_blank`); whatever else is said about words follows from this and from the words of a
text without blanks (`words_of_forall_not`).

How a text is put together out of words is said without a reader by `Spaced`, and the words that are
read are those that the text is put together of (`words_eq_iff`).
-/

namespace Candela.Text

variable {blank : Char → Bool} {c : Char} {current line : List Char}

/-! ## Texts as bytes -/

/-- A text as bytes. -/
def encode (cs : List Char) : List UInt8 := cs.flatMap String.utf8EncodeChar

@[simp] theorem encode_append (a b : List Char) : encode (a ++ b) = encode a ++ encode b :=
  List.flatMap_append

/-- A text that is written as bytes is read back. -/
theorem decode?_encode (cs : List Char) : decode? (encode cs) = some (String.ofList cs) := by
  have hbytes : (⟨(encode cs).toArray⟩ : ByteArray) = cs.utf8Encode :=
    ByteArray.ext List.data_toByteArray.symm
  rw [decode?, hbytes]
  exact dif_pos ByteArray.isValidUTF8_utf8Encode

/-- A byte of a character that is written with more than one byte has a mark at its top. -/
theorem ofNat_ne_newline {a m k : Nat} (hm : 0 < m) (hk : 0x80 ≤ k) (hmk : m + k ≤ 0x100) :
    (0x0a : UInt8) ≠ UInt8.ofNat (a % m + k) := by
  intro h
  have hlt : a % m < m := Nat.mod_lt a hm
  have hvalue : 10 = (a % m + k) % 256 := by simpa using congrArg UInt8.toNat h
  omega

/-- Characters beyond ASCII are written without the byte of a line feed. -/
theorem newline_notMem_utf8EncodeChar {c : Char} (h : ¬ c.val.toNat ≤ 0x7f) :
    0x0a ∉ String.utf8EncodeChar c := by
  intro hmem
  rw [String.utf8EncodeChar, if_neg h] at hmem
  -- with two, three or four bytes
  split at hmem
  · simp (disch := decide) only [List.mem_cons, List.not_mem_nil, or_self,
      ofNat_ne_newline] at hmem
  split at hmem
  · simp (disch := decide) only [List.mem_cons, List.not_mem_nil, or_self,
      ofNat_ne_newline] at hmem
  · simp (disch := decide) only [List.mem_cons, List.not_mem_nil, or_self,
      ofNat_ne_newline] at hmem

/-- Only a line feed is written with the byte of a line feed. -/
theorem eq_newline_of_mem {c : Char} (h : 0x0a ∈ String.utf8EncodeChar c) : c = '\n' := by
  by_cases hascii : c.val.toNat ≤ 0x7f
  · rw [String.utf8EncodeChar, if_pos hascii, List.mem_singleton] at h
    have hvalue : 10 = c.val.toNat % 256 := by simpa using congrArg UInt8.toNat h
    refine Char.ext (UInt32.toNat_inj.1 ?_)
    show c.val.toNat = 10
    omega
  · exact absurd h (newline_notMem_utf8EncodeChar hascii)

/-- A line without a line feed is written without the byte of a line feed. -/
theorem notMem_encode {line : List Char} (h : '\n' ∉ line) : 0x0a ∉ encode line := by
  intro hmem
  obtain ⟨c, hc, hbyte⟩ := List.mem_flatMap.1 hmem
  exact h (eq_newline_of_mem hbyte ▸ hc)

/-! ## Lines -/

/-- The lines before a line feed do not depend on what comes after it. -/
theorem splitLines_append_newline (current a b : List Char) :
    splitLines current (a ++ '\n' :: b) = splitLines current (a ++ ['\n']) ++ splitLines [] b := by
  induction a generalizing current with
  | nil => simp [splitLines]
  | cons c a ih =>
    by_cases hc : c = '\n'
    · subst hc
      simp only [List.cons_append, splitLines, ih]
    · simp only [List.cons_append, splitLines, ih]

/-- Text without a line feed goes on with the current line. -/
theorem splitLines_of_notMem {a : List Char} (h : '\n' ∉ a) (current b : List Char) :
    splitLines current (a ++ '\n' :: b) =
      dropReturn (current.reverse ++ a) :: splitLines [] b := by
  induction a generalizing current with
  | nil => simp [splitLines]
  | cons c a ih =>
    obtain ⟨hc, ha⟩ := not_or.1 (mt List.mem_cons.2 h)
    rw [List.cons_append, splitLines, ih ha, List.reverse_cons, List.append_assoc,
      List.singleton_append]
    exact fun heq => hc heq.symm

/-- A line without its line end is part of the line. -/
theorem dropReturn_prefix_line (line : List Char) : dropReturn line <+: line := by
  unfold dropReturn
  split
  · exact List.dropLast_prefix line
  · exact List.prefix_refl line

/-- No line has a line feed in it. -/
theorem notMem_of_mem_splitLines {text : List Char} (hcurrent : '\n' ∉ current)
    (h : line ∈ splitLines current text) : '\n' ∉ line := by
  induction text generalizing current with
  | nil =>
    unfold splitLines at h
    split at h
    · cases h
    · rw [List.mem_singleton.1 h, List.mem_reverse]
      exact hcurrent
  | cons c text ih =>
    by_cases hc : c = '\n'
    · subst hc
      rcases List.mem_cons.1 h with rfl | h
      · exact fun hmem => hcurrent (List.mem_reverse.1 ((dropReturn_prefix_line _).subset hmem))
      · exact ih List.not_mem_nil h
    · rw [splitLines] at h
      · exact ih (by simp [hcurrent, Ne.symm hc]) h
      · exact hc

/-- No line has a line feed in it. -/
theorem notMem_of_mem_lines {text line : String} (h : line ∈ lines text) : '\n' ∉ line.toList := by
  obtain ⟨cs, hcs, rfl⟩ := List.mem_map.1 h
  rw [String.toList_ofList]
  exact notMem_of_mem_splitLines List.not_mem_nil hcs

/-- A line has no characters but those of the text. -/
theorem mem_of_mem_splitLines {text : List Char} {c : Char} (h : line ∈ splitLines current text)
    (hc : c ∈ line) : c ∈ current ∨ c ∈ text := by
  induction text generalizing current with
  | nil =>
    unfold splitLines at h
    split at h
    · cases h
    · rw [List.mem_singleton.1 h, List.mem_reverse] at hc
      exact .inl hc
  | cons d text ih =>
    by_cases hd : d = '\n'
    · subst hd
      rcases List.mem_cons.1 h with rfl | h
      · exact .inl (List.mem_reverse.1 ((dropReturn_prefix_line _).subset hc))
      · rcases ih h with hc | hc
        · cases hc
        · exact .inr (List.mem_cons_of_mem _ hc)
    · rw [splitLines] at h
      · rcases ih h with hc | hc
        · rcases List.mem_cons.1 hc with rfl | hc
          · exact .inr List.mem_cons_self
          · exact .inl hc
        · exact .inr (List.mem_cons_of_mem _ hc)
      · exact hd

/-- A line has no characters but those of the text. -/
theorem mem_of_mem_lines {text line : String} {c : Char} (h : line ∈ lines text)
    (hc : c ∈ line.toList) : c ∈ text.toList := by
  obtain ⟨cs, hcs, rfl⟩ := List.mem_map.1 h
  rw [String.toList_ofList] at hc
  exact (mem_of_mem_splitLines hcs hc).resolve_left List.not_mem_nil

/-- A text that ends with a line feed has its own lines. -/
theorem lines_append_newline (a b : String) :
    lines (a ++ "\n" ++ b) = lines (a ++ "\n") ++ lines b := by
  have hlines := splitLines_append_newline [] a.toList b.toList
  simp only [lines, String.toList_append, List.append_assoc]
  show (splitLines [] (a.toList ++ '\n' :: b.toList)).map String.ofList = _
  rw [hlines, List.map_append]
  rfl

/-- Text without a line feed is one line once it is ended. -/
theorem lines_line {a : String} (h : '\n' ∉ a.toList) (b : String) :
    lines (a ++ "\n" ++ b) = String.ofList (dropReturn a.toList) :: lines b := by
  simp only [lines, String.toList_append, List.append_assoc]
  show (splitLines [] (a.toList ++ '\n' :: b.toList)).map String.ofList = _
  rw [splitLines_of_notMem h]
  rfl

/-- Text without a line feed is one line as it stands, unless it ends with a carriage return. -/
theorem lines_line_of_ne {a : String} (h : '\n' ∉ a.toList) (hlast : a.toList.getLast? ≠ some '\r')
    (b : String) : lines (a ++ "\n" ++ b) = a :: lines b := by
  rw [lines_line h, dropReturn, if_neg hlast, String.ofList_toList]

/-! ## Words -/

/-- Words that have been read stay as they are. -/
theorem putWord_append (word : List Char) (before : List (List Char)) :
    putWord word before = putWord word [] ++ before := by
  cases word <;> rfl

/-- What is read does not depend on the words before it. -/
theorem wordsAcc_eq (word : List Char) (before : List (List Char)) (cs : List Char) :
    wordsAcc blank word before cs = wordsAcc blank word [] cs ++ before := by
  induction cs generalizing word before with
  | nil => exact putWord_append word before
  | cons c rest ih =>
    unfold wordsAcc
    split
    · rw [ih [] (putWord word before), ih [] (putWord word []), putWord_append word before,
        List.append_assoc]
    · exact ih (c :: word) before

/-- Reading goes on behind a blank with a new word. -/
theorem wordsAcc_append_blank (hc : blank c = true) (word : List Char) (before : List (List Char))
    (a b : List Char) :
    wordsAcc blank word before (a ++ c :: b) =
      wordsAcc blank [] (wordsAcc blank word before a) b := by
  induction a generalizing word before with
  | nil => simp [wordsAcc, hc]
  | cons d a ih =>
    rw [List.cons_append, wordsAcc, wordsAcc]
    split
    · exact ih [] (putWord word before)
    · exact ih (d :: word) before

/-- The words of two texts with a blank between them are the words of both. -/
theorem words_append_blank (hc : blank c = true) (a b : List Char) :
    words blank (a ++ c :: b) = words blank a ++ words blank b := by
  rw [words, wordsAcc_append_blank hc, wordsAcc_eq, List.reverse_append]
  rfl

/-- A text without blanks goes on with the current word. -/
theorem wordsAcc_of_forall_not {cs : List Char} (h : ∀ c ∈ cs, blank c = false)
    (word : List Char) (before : List (List Char)) :
    wordsAcc blank word before cs = putWord (cs.reverse ++ word) before := by
  induction cs generalizing word with
  | nil => rfl
  | cons c rest ih =>
    obtain ⟨hc, hrest⟩ := List.forall_mem_cons.1 h
    rw [wordsAcc, hc, if_neg Bool.false_ne_true, ih hrest, List.reverse_cons, List.append_assoc,
      List.singleton_append]

/-- A text without blanks is one word, if there is any of it. -/
theorem words_of_forall_not {cs : List Char} (hne : cs ≠ []) (h : ∀ c ∈ cs, blank c = false) :
    words blank cs = [cs] := by
  have hne' : cs.reverse ≠ [] := fun hnil => hne (List.reverse_eq_nil_iff.1 hnil)
  rw [words, wordsAcc_of_forall_not h, List.append_nil, putWord, List.reverse_reverse]
  · rfl
  · exact hne'

/-! ## Blanks at the ends -/

/-- Blanks before a text add no words. -/
theorem words_blanks_append {before : List Char} (h : ∀ c ∈ before, blank c = true)
    (cs : List Char) : words blank (before ++ cs) = words blank cs := by
  induction before with
  | nil => rfl
  | cons c before ih =>
    obtain ⟨hc, hbefore⟩ := List.forall_mem_cons.1 h
    have hsplit := words_append_blank hc [] (before ++ cs)
    rw [List.nil_append] at hsplit
    rw [List.cons_append, hsplit, ih hbefore]
    rfl

/-- Blanks have no words. -/
theorem words_blanks {cs : List Char} (h : ∀ c ∈ cs, blank c = true) : words blank cs = [] := by
  rw [← List.append_nil cs, words_blanks_append h]
  rfl

/-- Blanks behind a text add no words. -/
theorem words_append_blanks {after : List Char} (h : ∀ c ∈ after, blank c = true)
    (cs : List Char) : words blank (cs ++ after) = words blank cs := by
  cases after with
  | nil => rw [List.append_nil]
  | cons c after =>
    obtain ⟨hc, hafter⟩ := List.forall_mem_cons.1 h
    rw [words_append_blank hc, words_blanks hafter, List.append_nil]

/-- What the blanks at its ends leave of a text. -/
theorem exists_eq_append_trim (cs : List Char) :
    ∃ before after, (∀ c ∈ before, isBlank c = true) ∧ (∀ c ∈ after, isBlank c = true) ∧
      cs = before ++ trim cs ++ after := by
  let rest := cs.dropWhile isBlank
  refine ⟨cs.takeWhile isBlank, (rest.reverse.takeWhile isBlank).reverse,
    fun c hc => List.mem_takeWhile_imp hc,
    fun c hc => List.mem_takeWhile_imp (List.mem_reverse.1 hc), ?_⟩
  have hrest : trim cs ++ (rest.reverse.takeWhile isBlank).reverse = rest := by
    rw [trim, ← List.reverse_append, List.takeWhile_append_dropWhile, List.reverse_reverse]
  rw [List.append_assoc, hrest, List.takeWhile_append_dropWhile]

/-- Taking the blanks off the ends of a text leaves its words. -/
theorem words_trim (cs : List Char) : words isBlank (trim cs) = words isBlank cs := by
  obtain ⟨before, after, hbefore, hafter, heq⟩ := exists_eq_append_trim cs
  have hwords := congrArg (words isBlank) heq
  rwa [words_append_blanks hafter, words_blanks_append hbefore, eq_comm] at hwords

/-! ## Texts that are put together out of words -/

/-- A text is put together out of some words: no word is empty or has a blank in it, there are
blanks between two words, and there may be some before the first and behind the last one. -/
inductive Spaced (blank : Char → Bool) : List (List Char) → List Char → Prop
  /-- There are only blanks. -/
  | nil {cs : List Char} (h : ∀ c ∈ cs, blank c = true) : Spaced blank [] cs
  /-- There is a word, which ends with the text or at a blank. -/
  | cons {before word after : List Char} {ws : List (List Char)}
    (hbefore : ∀ c ∈ before, blank c = true) (hne : word ≠ [])
    (hword : ∀ c ∈ word, blank c = false) (hend : ∀ c ∈ after.head?, blank c = true)
    (hafter : Spaced blank ws after) : Spaced blank (word :: ws) (before ++ word ++ after)

/-- The words that a text is put together of are read. -/
theorem Spaced.words_eq {ws : List (List Char)} {cs : List Char} (h : Spaced blank ws cs) :
    words blank cs = ws := by
  induction h with
  | nil h => exact words_blanks h
  | @cons before word after ws hbefore hne hword hend _ ih =>
    rw [List.append_assoc, words_blanks_append hbefore, ← ih]
    cases after with
    | nil =>
      rw [List.append_nil, words_of_forall_not hne hword]
      rfl
    | cons c after =>
      have hc : blank c = true := hend c rfl
      rw [words_append_blank hc, words_of_forall_not hne hword]
      exact congrArg (word :: ·) (words_append_blank hc [] after).symm

/-- Every text is put together out of the words that are read. -/
theorem spaced_words (blank : Char → Bool) (cs : List Char) :
    Spaced blank (words blank cs) cs := by
  -- the first word ends where the text or the run of characters that are no blanks ends
  induction hn : cs.length using Nat.strongRecOn generalizing cs with
  | ind n ih =>
    subst hn
    let rest := cs.dropWhile blank
    let word := rest.takeWhile (!blank ·)
    let after := rest.dropWhile (!blank ·)
    have hbefore : ∀ c ∈ cs.takeWhile blank, blank c = true := fun c hc => List.mem_takeWhile_imp hc
    have hsplit : cs = cs.takeWhile blank ++ word ++ after := by
      rw [List.append_assoc, List.takeWhile_append_dropWhile, List.takeWhile_append_dropWhile]
    by_cases hrest : rest = []
    · have hall : ∀ c ∈ cs, blank c = true := List.dropWhile_eq_nil_iff.1 hrest
      exact words_blanks hall ▸ .nil hall
    · have hfirst : blank (rest.head hrest) = false := by
        simpa using List.head_dropWhile_not blank hrest
      have hne : word ≠ [] := by
        obtain ⟨c, tail, heq⟩ := List.exists_cons_of_ne_nil hrest
        simp only [heq, List.head_cons] at hfirst
        simp [word, heq, hfirst]
      have hword : ∀ c ∈ word, blank c = false := fun c hc => by
        simpa using List.mem_takeWhile_imp hc
      have hend : ∀ c ∈ after.head?, blank c = true := fun c hc => by
        have hnot := List.head?_dropWhile_not (!blank ·) rest
        rw [Option.mem_def.1 hc] at hnot
        simpa using hnot
      have hlt : after.length < cs.length := by
        have := congrArg List.length hsplit
        have := List.length_pos_iff.2 hne
        simp only [List.length_append] at *
        omega
      have hspaced : Spaced blank (word :: words blank after) cs := by
        have hspaced := Spaced.cons hbefore hne hword hend (ih _ hlt after rfl)
        rwa [← hsplit] at hspaced
      exact hspaced.words_eq ▸ hspaced

/-- The words that are read are those that a text is put together of. -/
theorem words_eq_iff {ws : List (List Char)} {cs : List Char} :
    words blank cs = ws ↔ Spaced blank ws cs :=
  ⟨fun h => h ▸ spaced_words blank cs, Spaced.words_eq⟩

instance (ws : List (List Char)) (cs : List Char) : Decidable (Spaced blank ws cs) :=
  decidable_of_iff _ words_eq_iff

/-- A word begins where the blanks before it end. -/
theorem dropWhile_blanks_append {before word : List Char} (hbefore : ∀ c ∈ before, blank c = true)
    (hne : word ≠ []) (hword : ∀ c ∈ word, blank c = false) (after : List Char) :
    (before ++ word ++ after).dropWhile blank = word ++ after := by
  obtain ⟨c, word, rfl⟩ := List.exists_cons_of_ne_nil hne
  have hc : ¬ blank c = true := by simp [hword c List.mem_cons_self]
  rw [List.append_assoc, List.dropWhile_append_of_pos hbefore, List.cons_append,
    List.dropWhile_cons_of_neg hc]

/-- A text is one word between blanks if it is the word once they are taken off. -/
theorem trim_eq_iff {word : List Char} (hne : word ≠ []) (hword : ∀ c ∈ word, isBlank c = false)
    {cs : List Char} : trim cs = word ↔ Spaced isBlank [word] cs := by
  constructor
  · intro h
    rw [← words_eq_iff, ← words_trim, h, words_of_forall_not hne hword]
  · intro h
    cases h with
    | @cons before _ after _ hbefore _ _ _ hafter =>
    cases hafter with
    | nil hafter =>
    have hreverse :
        (after.reverse ++ word.reverse ++ []).dropWhile isBlank = word.reverse ++ [] :=
      dropWhile_blanks_append (fun c hc => hafter c (List.mem_reverse.1 hc)) (by simpa using hne)
        (fun c hc => hword c (List.mem_reverse.1 hc)) []
    rw [trim, dropWhile_blanks_append hbefore hne hword, List.reverse_append,
      ← List.append_nil (after.reverse ++ word.reverse), hreverse, List.append_nil,
      List.reverse_reverse]

end Candela.Text
