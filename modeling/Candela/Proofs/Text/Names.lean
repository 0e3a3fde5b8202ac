import Mathlib
import Candela.Text.Names

/-!
# Identifiers and fresh names

`IsSnake` is the form of a snake identifier: words of lower-case ASCII letters and digits, joined by
single underscores. It can be told from neighbouring characters alone: put between two underscores,
such a text has no two underscores side by side (`isSnake_iff`).

Whatever a name is, `snake` gives a text of that form (`isSnake_snake`). While the words are written,
`afterBar` says whether the last character written is an underscore, and `afterLower` that it is not
one; so an underscore is never written after another (`isChain_snakeChars`). A text that has the form
already is left alone (`snake_eq_self`).

The search for a fresh name tries as many candidates as there are names taken. The candidates
differ, so each one that is taken uses up a taken name of its own, and what the search ends with is
free (`firstFree_notMem`). Hence `fresh` never gives a name twice (`fresh_notMem`).
-/

namespace Candela.Text

variable {c : Char} {taken taken' : List String} {candidate : Nat → String}

/-! ## Characters of snake identifiers -/

/-- Whether a character is a lower-case ASCII letter, a digit or an underscore. -/
def isSnakeChar (c : Char) : Bool := c.isLower || c.isDigit || c == '_'

/-- A digit may stand in a snake identifier. -/
theorem isSnakeChar_of_isDigit (h : c.isDigit = true) : isSnakeChar c = true := by
  simp [isSnakeChar, h]

/-- An upper-case letter has a lower-case one. -/
theorem isLower_toLower (h : c.isUpper = true) : c.toLower.isLower = true := by
  rw [Char.isLower_toLower_eq_isAlpha, Char.isAlpha, h, Bool.true_or]

/-- An upper-case letter may stand in a snake identifier once it is put in lower case. -/
theorem isSnakeChar_toLower (h : c.isUpper = true) : isSnakeChar c.toLower = true := by
  simp [isSnakeChar, isLower_toLower h]

/-- A letter or digit that is not in upper case may stand in a snake identifier. -/
theorem isSnakeChar_of_isWordChar (h : isWordChar c = true) (hupper : ¬ c.isUpper = true) :
    isSnakeChar c = true := by
  simp only [isWordChar, Char.isAlphanum, Char.isAlpha, Bool.or_eq_true] at h
  simp only [isSnakeChar, Bool.or_eq_true]
  rcases h with (h | h) | h
  · exact absurd h hupper
  · exact .inl (.inl h)
  · exact .inl (.inr h)

/-- The words of a name and the underscores between them have no other characters. -/
theorem isSnakeChar_of_mem_snakeChars {afterLower afterBar : Bool} {cs : List Char}
    (h : c ∈ snakeChars afterLower afterBar cs) : isSnakeChar c = true := by
  have hbar : isSnakeChar '_' = true := by decide
  induction cs generalizing afterLower afterBar with
  | nil => cases h
  | cons d rest ih =>
    unfold snakeChars at h
    split at h
    · next hupper =>
      split at h
      · rcases List.mem_cons.1 h with rfl | h
        · exact hbar
        · rcases List.mem_cons.1 h with rfl | h
          · exact isSnakeChar_toLower hupper
          · exact ih h
      · rcases List.mem_cons.1 h with rfl | h
        · exact isSnakeChar_toLower hupper
        · exact ih h
    · next hupper =>
      split at h
      · next hword =>
        rcases List.mem_cons.1 h with rfl | h
        · exact isSnakeChar_of_isWordChar hword hupper
        · exact ih h
      · split at h
        · exact ih h
        · rcases List.mem_cons.1 h with rfl | h
          · exact hbar
          · exact ih h

/-- Taking underscores off adds nothing. -/
theorem trimBars_subset (cs : List Char) : trimBars cs ⊆ cs := by
  intro c hc
  rw [trimBars, List.mem_reverse] at hc
  exact (List.dropWhile_suffix _).subset
    (List.mem_reverse.1 ((List.dropWhile_suffix _).subset hc))

/-- The snake identifier of a name has no other characters. -/
theorem isSnakeChar_of_mem_snake {name : String} (h : c ∈ (snake name).toList) :
    isSnakeChar c = true := by
  unfold snake at h
  split at h
  · have hnode : ∀ c ∈ ['n', 'o', 'd', 'e'], isSnakeChar c = true := by
      simp [isSnakeChar]
    exact hnode c h
  · rw [String.toList_ofList] at h
    exact isSnakeChar_of_mem_snakeChars (trimBars_subset _ h)

/-! ## The form of a snake identifier -/

variable {last : Char} {cs : List Char} {s : String}

/-- Whether a character is a lower-case ASCII letter or a digit. -/
def isSnakeLetter (c : Char) : Bool := c.isLower || c.isDigit

/-- A text is a snake identifier: one or more words of lower-case ASCII letters and digits, with one
underscore between them. -/
def IsSnake (s : String) : Prop :=
  ∃ words : List (List Char), words ≠ [] ∧
    (∀ w ∈ words, w ≠ [] ∧ ∀ c ∈ w, isSnakeLetter c = true) ∧ s.toList = ['_'].intercalate words

theorem isSnakeChar_iff : isSnakeChar c = true ↔ isSnakeLetter c = true ∨ c = '_' := by
  simp [isSnakeChar, isSnakeLetter]

theorem ne_bar_of_isSnakeLetter (h : isSnakeLetter c = true) : c ≠ '_' := by
  rintro rfl
  exact absurd h (by decide)

/-- Two neighbours are not both underscores. -/
def Parted (a b : Char) : Prop := ¬ (a = '_' ∧ b = '_')

/-- There is no underscore at either end and none beside another one. Put between two underscores,
no characters at all would make these two neighbours. -/
def Separated (cs : List Char) : Prop := List.IsChain Parted ('_' :: (cs ++ ['_']))

theorem separated_iff :
    Separated cs ↔ cs ≠ [] ∧ cs.head? ≠ some '_' ∧ cs.getLast? ≠ some '_' ∧ cs.IsChain Parted := by
  rcases eq_or_ne cs [] with rfl | hne
  · simp [Separated, Parted]
  have hhead : (∀ d ∈ (cs ++ ['_']).head?, Parted '_' d) ↔ cs.head? ≠ some '_' := by
    rw [List.head?_append_of_ne_nil _ hne]
    exact ⟨fun h hbar => h _ hbar ⟨rfl, rfl⟩, fun h _ hd hboth => h (hboth.2 ▸ hd)⟩
  have hlast : (∀ c ∈ cs.getLast?, ∀ d ∈ ['_'].head?, Parted c d) ↔ cs.getLast? ≠ some '_' :=
    ⟨fun h hbar => h _ hbar _ rfl ⟨rfl, rfl⟩, fun h _ hc _ _ hboth => h (hboth.1 ▸ hc)⟩
  rw [Separated, List.isChain_cons, List.isChain_append, hhead, hlast, and_iff_right hne,
    and_iff_right (List.IsChain.singleton _), and_comm (a := cs.IsChain Parted)]

/-- A word is separated, whatever stands before it. -/
theorem isChain_word {w : List Char} (hne : w ≠ []) (h : ∀ c ∈ w, isSnakeLetter c = true)
    (before : Char) : List.IsChain Parted (before :: (w ++ ['_'])) := by
  induction w generalizing before with
  | nil => exact absurd rfl hne
  | cons c w ih =>
    obtain ⟨hc, hw⟩ := List.forall_mem_cons.1 h
    have hletter := ne_bar_of_isSnakeLetter hc
    refine .cons_cons (fun hboth => hletter hboth.2) ?_
    cases w with
    | nil => exact .cons_cons (fun hboth => hletter hboth.1) (.singleton _)
    | cons d w => exact ih (List.cons_ne_nil _ _) hw c

/-- Joined words with an underscore behind them are words with an underscore behind each. -/
theorem intercalate_append {words : List (List Char)} (h : words ≠ []) :
    ['_'].intercalate words ++ ['_'] = words.flatMap (· ++ ['_']) := by
  induction words with
  | nil => exact absurd rfl h
  | cons w words ih =>
    cases words with
    | nil => simp
    | cons w' words =>
      rw [List.intercalate_cons_cons, List.append_assoc, ih (List.cons_ne_nil _ _)]
      rfl

/-- Words with an underscore behind each are separated. -/
theorem isChain_words {words : List (List Char)}
    (h : ∀ w ∈ words, w ≠ [] ∧ ∀ c ∈ w, isSnakeLetter c = true) :
    List.IsChain Parted ('_' :: words.flatMap (· ++ ['_'])) := by
  induction words with
  | nil => exact .singleton _
  | cons w words ih =>
    obtain ⟨⟨hne, hletters⟩, hwords⟩ := List.forall_mem_cons.1 h
    rw [List.flatMap_cons, List.append_assoc, List.singleton_append, ← List.cons_append,
      List.isChain_split]
    exact ⟨isChain_word hne hletters '_', ih hwords⟩

/-- Separated characters are words that are joined by underscores. -/
theorem exists_words : ∀ {cs : List Char}, (∀ c ∈ cs, isSnakeChar c = true) → Separated cs →
    ∃ words : List (List Char), words ≠ [] ∧
      (∀ w ∈ words, w ≠ [] ∧ ∀ c ∈ w, isSnakeLetter c = true) ∧ cs = ['_'].intercalate words
  | [], _, h => absurd rfl (separated_iff.1 h).1
  | [c], hchars, h => by
    have hc : isSnakeLetter c = true :=
      (isSnakeChar_iff.1 (hchars c (.head _))).resolve_right fun hbar =>
        (separated_iff.1 h).2.1 (hbar ▸ rfl)
    exact ⟨[[c]], by simp, by simpa using hc, rfl⟩
  | c :: d :: rest, hchars, h => by
    obtain ⟨hfirst, htail⟩ := List.isChain_cons_cons.1 h
    have hc : isSnakeLetter c = true :=
      (isSnakeChar_iff.1 (hchars c (.head _))).resolve_right fun hbar => hfirst ⟨rfl, hbar⟩
    have hrest : ∀ c ∈ d :: rest, isSnakeChar c = true := fun c hc => hchars c (.tail _ hc)
    have hdrest := (List.isChain_cons_cons.1 htail).2
    by_cases hd : d = '_'
    · -- the first word ends here
      subst hd
      obtain ⟨words, hne, hwords, heq⟩ :=
        exists_words (fun c hc => hrest c (.tail _ hc)) hdrest
      refine ⟨[c] :: words, List.cons_ne_nil _ _, ?_, ?_⟩
      · exact List.forall_mem_cons.2 ⟨by simpa using hc, hwords⟩
      · rw [List.intercalate_cons_of_ne_nil hne, ← heq]
        rfl
    · -- the first word goes on
      have hseparated : Separated (d :: rest) :=
        .cons_cons (fun hboth => hd hboth.2) hdrest
      obtain ⟨words, hne, hwords, heq⟩ := exists_words hrest hseparated
      obtain ⟨w, words, rfl⟩ := List.exists_cons_of_ne_nil hne
      obtain ⟨⟨-, hw⟩, hwords⟩ := List.forall_mem_cons.1 hwords
      refine ⟨(c :: w) :: words, List.cons_ne_nil _ _, ?_, ?_⟩
      · refine List.forall_mem_cons.2 ⟨⟨List.cons_ne_nil _ _, ?_⟩, hwords⟩
        exact List.forall_mem_cons.2 ⟨hc, hw⟩
      · rw [heq]
        cases words <;> simp

/-- The form can be told from single characters and neighbours. -/
theorem isSnake_iff :
    IsSnake s ↔ (∀ c ∈ s.toList, isSnakeChar c = true) ∧ Separated s.toList := by
  constructor
  · rintro ⟨words, hne, hwords, heq⟩
    have hjoined : s.toList ++ ['_'] = words.flatMap (· ++ ['_']) := by
      rw [heq, intercalate_append hne]
    refine ⟨fun c hc => ?_, ?_⟩
    · have hmem : c ∈ words.flatMap (· ++ ['_']) := hjoined ▸ List.mem_append_left _ hc
      obtain ⟨w, hw, hcw⟩ := List.mem_flatMap.1 hmem
      rw [List.mem_append, List.mem_singleton] at hcw
      exact isSnakeChar_iff.2 (hcw.imp_left ((hwords w hw).2 c))
    · rw [Separated, hjoined]
      exact isChain_words hwords
  · rintro ⟨hchars, hseparated⟩
    exact exists_words hchars hseparated

/-! ## Every name gets a snake identifier -/

/-- While the words of a name are written, an underscore is never written after another. The
invariant ties what is kept in mind to the character that was written last. -/
theorem isChain_snakeChars {afterLower afterBar : Bool} (hbar : afterBar = true ↔ last = '_')
    (hlower : afterLower = true → last ≠ '_') (cs : List Char) :
    List.IsChain Parted (last :: snakeChars afterLower afterBar cs) := by
  induction cs generalizing afterLower afterBar last with
  | nil => exact .singleton _
  | cons c rest ih =>
    have after {d : Char} (hd : d ≠ '_') (lower : Bool) :
        List.IsChain Parted (d :: snakeChars lower false rest) :=
      ih (iff_of_false Bool.false_ne_true hd) fun _ => hd
    unfold snakeChars
    split
    · next hupper =>
      have hne : c.toLower ≠ '_' :=
        ne_bar_of_isSnakeLetter (by rw [isSnakeLetter, isLower_toLower hupper, Bool.true_or])
      split
      · next hafter =>
        exact .cons_cons (fun hboth => hlower hafter hboth.1)
          (.cons_cons (fun hboth => hne hboth.2) (after hne false))
      · exact .cons_cons (fun hboth => hne hboth.2) (after hne false)
    · split
      · next hword =>
        have hne : c ≠ '_' := by
          rintro rfl
          exact absurd hword (by decide)
        exact .cons_cons (fun hboth => hne hboth.2) (after hne true)
      · split
        · next hafter =>
          exact ih (iff_of_true rfl (hbar.1 hafter)) fun hfalse => absurd hfalse Bool.false_ne_true
        · next hafter =>
          refine .cons_cons (fun hboth => hafter (hbar.2 hboth.1)) ?_
          exact ih (iff_of_true rfl rfl) fun hfalse => absurd hfalse Bool.false_ne_true

theorem trimBars_eq_rdropWhile (cs : List Char) :
    trimBars cs = (cs.dropWhile (· == '_')).rdropWhile (· == '_') := rfl

/-- What is left without the underscores at both ends is separated if it was so inside. -/
theorem separated_trimBars (h : cs.IsChain Parted) (hne : trimBars cs ≠ []) :
    Separated (trimBars cs) := by
  have hprefix : trimBars cs <+: cs.dropWhile (· == '_') := List.rdropWhile_prefix _ _
  refine separated_iff.2 ⟨hne, ?_, ?_, List.IsChain.infix h ?_⟩
  · obtain ⟨after, happend⟩ := hprefix
    have hhead := List.head?_dropWhile_not (· == '_') cs
    rw [← happend, List.head?_append_of_ne_nil _ hne] at hhead
    intro hbar
    rw [hbar] at hhead
    cases hhead
  · rw [List.getLast?_eq_some_getLast hne, ne_eq, Option.some_inj]
    have hlast := List.rdropWhile_last_not (· == '_') (cs.dropWhile (· == '_')) hne
    exact fun hbar => hlast (beq_iff_eq.2 hbar)
  · exact hprefix.isInfix.trans (List.dropWhile_suffix _).isInfix

/-- The snake identifier of a name has the form of one. -/
theorem isSnake_snake (name : String) : IsSnake (snake name) := by
  refine isSnake_iff.2 ⟨fun c hc => isSnakeChar_of_mem_snake hc, ?_⟩
  have hchain : List.IsChain Parted (snakeChars false false name.toList) := by
    have hstart : List.IsChain Parted ('a' :: snakeChars false false name.toList) :=
      isChain_snakeChars (by decide) (by decide) name.toList
    exact (List.isChain_cons.1 hstart).2
  unfold snake
  split
  · exact separated_iff.2 (by simp [Parted])
  · next _ hne =>
    rw [String.toList_ofList]
    exact separated_trimBars hchain fun hnil => hne hnil

/-! ## Snake identifiers are left alone -/

/-- A lower-case letter or a digit is no upper-case letter. -/
theorem wordChar_of_isSnakeLetter (h : isSnakeLetter c = true) :
    ¬ c.isUpper = true ∧ isWordChar c = true := by
  simp only [isSnakeLetter, Bool.or_eq_true] at h
  refine ⟨?_, ?_⟩
  · simp only [Char.isLower, Char.isDigit, Char.isUpper, Bool.and_eq_true, decide_eq_true_eq,
      ge_iff_le, UInt32.le_iff_toNat_le, Char.reduceVal, UInt32.reduceToNat] at h ⊢
    omega
  · simp only [isWordChar, Char.isAlphanum, Char.isAlpha, Bool.or_eq_true]
    exact h.imp_left .inr

/-- Separated characters of identifiers are written as they are. -/
theorem snakeChars_eq_self {afterLower afterBar : Bool} (hbar : afterBar = true → last = '_')
    (hchars : ∀ c ∈ cs, isSnakeChar c = true) (h : List.IsChain Parted (last :: cs)) :
    snakeChars afterLower afterBar cs = cs := by
  induction cs generalizing afterLower afterBar last with
  | nil => rfl
  | cons c rest ih =>
    obtain ⟨hfirst, hrest⟩ := List.isChain_cons_cons.1 h
    obtain ⟨hc, hothers⟩ := List.forall_mem_cons.1 hchars
    rcases isSnakeChar_iff.1 hc with hletter | rfl
    · obtain ⟨hupper, hword⟩ := wordChar_of_isSnakeLetter hletter
      rw [snakeChars, if_neg hupper, if_pos hword,
        ih (fun hfalse => absurd hfalse Bool.false_ne_true) hothers hrest]
    · have hafter : ¬ afterBar = true := fun hafter => hfirst ⟨hbar hafter, rfl⟩
      rw [snakeChars, if_neg (by decide), if_neg (by decide), if_neg hafter,
        ih (fun _ => rfl) hothers hrest]

/-- A text that has the form of a snake identifier is its own. -/
theorem snake_eq_self (h : IsSnake s) : snake s = s := by
  obtain ⟨hchars, hseparated⟩ := isSnake_iff.1 h
  obtain ⟨hne, hhead, hlast, hchain⟩ := separated_iff.1 hseparated
  have hwritten : snakeChars false false s.toList = s.toList := by
    have hstart : List.IsChain Parted ('a' :: s.toList) :=
      hchain.cons fun _ _ hboth => absurd hboth.1 (by decide)
    exact snakeChars_eq_self (fun hfalse => absurd hfalse Bool.false_ne_true) hchars hstart
  have hfront : s.toList.dropWhile (· == '_') = s.toList := by
    refine List.dropWhile_eq_self_iff.2 fun hpos hbar => hhead ?_
    rw [List.head?_eq_getElem?, List.getElem?_eq_getElem hpos, beq_iff_eq.1 hbar]
  have htrimmed : trimBars s.toList = s.toList := by
    rw [trimBars_eq_rdropWhile, hfront, List.rdropWhile_eq_self_iff]
    intro hnonempty hbar
    rw [List.getLast?_eq_some_getLast hnonempty, beq_iff_eq.1 hbar] at hlast
    exact hlast rfl
  unfold snake
  rw [hwritten, htrimmed]
  split
  · next hnil => exact absurd hnil hne
  · exact String.ofList_toList

/-! ## Fresh names -/

/-- A search only depends on which of the candidates that it may try are taken. -/
theorem firstFree_congr (fuel start : Nat)
    (h : ∀ n, start ≤ n → (candidate n ∈ taken ↔ candidate n ∈ taken')) :
    firstFree taken candidate fuel start = firstFree taken' candidate fuel start := by
  induction fuel generalizing start with
  | zero => rfl
  | succ fuel ih =>
    simp only [firstFree, h start (Nat.le_refl start)]
    rw [ih (start + 1) fun n hn => h n (Nat.le_of_succ_le hn)]

/-- A search ends with one of the candidates that it may try. -/
theorem exists_firstFree_eq (fuel start : Nat) :
    ∃ n, start ≤ n ∧ firstFree taken candidate fuel start = candidate n := by
  induction fuel generalizing start with
  | zero => exact ⟨start, Nat.le_refl start, rfl⟩
  | succ fuel ih =>
    unfold firstFree
    split
    · obtain ⟨n, hn, heq⟩ := ih (start + 1)
      exact ⟨n, Nat.le_of_succ_le hn, heq⟩
    · exact ⟨start, Nat.le_refl start, rfl⟩

/-- A search that may try as many different candidates as there are names taken ends with a free
one. -/
theorem firstFree_notMem (hinj : ∀ m n, candidate m = candidate n → m = n) (fuel start : Nat)
    (hfuel : taken.length ≤ fuel) : firstFree taken candidate fuel start ∉ taken := by
  induction fuel generalizing taken start with
  | zero =>
    have : taken = [] := List.eq_nil_of_length_eq_zero (Nat.le_zero.1 hfuel)
    simp [this]
  | succ fuel ih =>
    unfold firstFree
    split
    · next hmem =>
      -- the candidate that is taken cannot come back, so it is struck from the list
      let left := taken.filter (· ≠ candidate start)
      have hlt : left.length < taken.length :=
        List.length_filter_lt_length_iff_exists.2 ⟨candidate start, hmem, by simp⟩
      have hleft : ∀ n, start + 1 ≤ n → (candidate n ∈ taken ↔ candidate n ∈ left) := by
        intro n hn
        have hne : candidate n ≠ candidate start := fun heq => by
          have := hinj _ _ heq
          omega
        simp [left, hne]
      have hfree : firstFree left candidate fuel (start + 1) ∉ left := ih (start + 1) (by omega)
      obtain ⟨n, hn, heq⟩ : ∃ n, start + 1 ≤ n ∧
          firstFree left candidate fuel (start + 1) = candidate n := exists_firstFree_eq _ _
      rw [firstFree_congr fuel (start + 1) hleft, heq, hleft n hn]
      rwa [heq] at hfree
    · next hnot => exact hnot

/-- Numbers after a stem tell names apart. -/
theorem numbered_inj {stem : String} {m n : Nat} (h : stem ++ toString m = stem ++ toString n) :
    m = n := by
  have hdigits : Nat.toDigits 10 m = Nat.toDigits 10 n := by
    have hrepr := congrArg String.toList ((String.append_right_inj stem).1 h)
    simpa [Nat.toString_eq_ofList_toDigits] using hrepr
  have hvalue := congrArg (fun digits => Nat.ofDigitChars 10 digits 0) hdigits
  simpa using hvalue

/-- A fresh name is not taken. -/
theorem fresh_notMem (taken : List String) (base separator : String) :
    fresh taken base separator ∉ taken := by
  unfold fresh
  split
  · exact firstFree_notMem (fun _ _ h => numbered_inj h) taken.length 2 (Nat.le_refl _)
  · next hnot => exact hnot

/-- A fresh name is the base, or the base with a number. -/
theorem exists_fresh_eq (taken : List String) (base separator : String) :
    fresh taken base separator = base ∨
      ∃ n : Nat, 2 ≤ n ∧ fresh taken base separator = base ++ separator ++ toString n := by
  unfold fresh
  split
  · exact .inr (exists_firstFree_eq taken.length 2)
  · exact .inl rfl

/-- Whatever a fresh name made from a snake identifier has behind its stem may stand in a snake
identifier. -/
theorem exists_fresh_append (stem separator : String)
    (hseparator : separator.toList.all isSnakeChar = true) (taken : List String) (name : String) :
    ∃ rest, fresh taken (stem ++ snake name) separator = stem ++ rest ∧
      ∀ c ∈ rest.toList, isSnakeChar c = true := by
  have hsnake : ∀ c ∈ (snake name).toList, isSnakeChar c = true :=
    fun _ hc => isSnakeChar_of_mem_snake hc
  rcases exists_fresh_eq taken (stem ++ snake name) separator with heq | ⟨n, -, heq⟩
  · exact ⟨snake name, heq, hsnake⟩
  · refine ⟨snake name ++ (separator ++ toString n), ?_, fun c hc => ?_⟩
    · rw [heq, String.append_assoc, String.append_assoc]
    · rw [String.toList_append, String.toList_append, List.mem_append, List.mem_append] at hc
      rcases hc with hc | hc | hc
      · exact hsnake c hc
      · exact List.all_eq_true.1 hseparator c hc
      · rw [Nat.toString_eq_ofList_toDigits, String.toList_ofList] at hc
        exact isSnakeChar_of_isDigit (Nat.isDigit_of_mem_toDigits (by decide) (by decide) hc)

/-! ## Order of the search -/

/-- The names that a search tries, in their order: the base, then the base with the numbers from two
on. -/
def freshCandidate (base separator : String) : Nat → String
  | 0 => base
  | n + 1 => base ++ separator ++ toString (n + 2)

/-- All candidates that come before the one a search ends with are taken, and a search goes no
further than it may. -/
theorem exists_firstFree_first (fuel start : Nat) :
    ∃ n, start ≤ n ∧ n ≤ start + fuel ∧ firstFree taken candidate fuel start = candidate n ∧
      ∀ m, start ≤ m → m < n → candidate m ∈ taken := by
  induction fuel generalizing start with
  | zero =>
    exact ⟨start, Nat.le_refl start, Nat.le_refl start, rfl, fun m hm hlt => absurd hm (by omega)⟩
  | succ fuel ih =>
    unfold firstFree
    split
    · next hmem =>
      obtain ⟨n, hn, hbound, heq, hbefore⟩ := ih (start + 1)
      refine ⟨n, by omega, by omega, heq, fun m hm hlt => ?_⟩
      rcases Nat.eq_or_lt_of_le hm with rfl | hm
      · exact hmem
      · exact hbefore m hm hlt
    · exact ⟨start, Nat.le_refl start, Nat.le_add_right _ _, rfl,
        fun m hm hlt => absurd hm (by omega)⟩

/-- Whatever is taken, the search comes to an end: a fresh name is the first candidate that is not
taken. -/
theorem exists_freshCandidate (taken : List String) (base separator : String) :
    ∃ n, fresh taken base separator = freshCandidate base separator n ∧
      freshCandidate base separator n ∉ taken ∧
      ∀ m, m < n → freshCandidate base separator m ∈ taken := by
  suffices h : ∃ n, fresh taken base separator = freshCandidate base separator n ∧
      ∀ m, m < n → freshCandidate base separator m ∈ taken by
    obtain ⟨n, heq, hbefore⟩ := h
    exact ⟨n, heq, heq ▸ fresh_notMem taken base separator, hbefore⟩
  unfold fresh
  split
  · next hbase =>
    obtain ⟨n, hn, -, heq, hbefore⟩ : ∃ n, 2 ≤ n ∧ n ≤ 2 + taken.length ∧
        firstFree taken (fun n => base ++ separator ++ toString n) taken.length 2 =
          base ++ separator ++ toString n ∧
        ∀ m : Nat, 2 ≤ m → m < n → base ++ separator ++ toString m ∈ taken :=
      exists_firstFree_first taken.length 2
    obtain ⟨n, rfl⟩ := Nat.exists_eq_add_of_le' hn
    refine ⟨n + 1, heq, fun m hm => ?_⟩
    cases m with
    | zero => exact hbase
    | succ m => exact hbefore (m + 2) (by omega) (by omega)
  · exact ⟨0, rfl, fun m hm => absurd hm (Nat.not_lt_zero m)⟩

end Candela.Text
