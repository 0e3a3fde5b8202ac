import Mathlib
import Candela.Json.Printer
import Candela.Json.Reader
import Candela.Proofs.Json.Numeral

/-!
# Printed documents read back

A value is read from its text up to where the text ends (`Spells`): a string with whatever characters
(`spells_quote`), a natural number, and a finite number. So the members of a printed object are read
one after the other (`members?_prettyMembers`), and the object is what is read
(`parse?_pretty`).
-/

namespace Candela.Json

open Decimal (Digits Layout)

variable {cs : List Char} {c : Char} {j : Json} {n : Nat}

/-! ## Strings -/

theorem hexDigit?_hexChar : ∀ d < 16, hexDigit? (hexChar d) = some d := by decide

/-- A character that is printed by its number is read back. -/
theorem hexUnit?_hexChar (hn : n < 0x20) (rest : List Char) :
    hexUnit? ('0' :: '0' :: hexChar (n / 16) :: hexChar (n % 16) :: rest) = some (n, rest) := by
  have zero : hexDigit? '0' = some 0 := by decide
  simp only [hexUnit?, zero, hexDigit?_hexChar (n / 16) (by omega),
    hexDigit?_hexChar (n % 16) (by omega), Option.bind_eq_bind, Option.bind_some]
  exact congrArg some (Prod.ext (by omega) rfl)

theorem escapeChar_ne_nil (c : Char) : escapeChar c ≠ [] := by
  unfold escapeChar
  repeat' split
  all_goals exact List.cons_ne_nil _ _

/-- A character that is printed in a string is read back. -/
theorem stringRest?_escapeChar (fuel : Nat) (seen rest : List Char) (c : Char) :
    stringRest? (fuel + 1) true seen (escapeChar c ++ rest) =
      stringRest? fuel true (c :: seen) rest := by
  unfold escapeChar
  split
  next h => rw [h]; rfl
  split
  next h => rw [h]; rfl
  split
  next h => rw [h]; rfl
  split
  next h => rw [h]; rfl
  split
  next h => rw [h]; rfl
  next hquote hslash _ _ _ =>
    split
    next hcontrol =>
      have first : c.toNat < 0xD800 ∨ 0xDFFF < c.toNat := .inl (hcontrol.trans (by decide))
      have escape : ¬ '\\' = '"' := by decide
      rw [List.cons_append, List.cons_append, stringRest?, if_neg escape, if_pos rfl]
      simp only [List.cons_append, List.nil_append, hexUnit?_hexChar hcontrol, unitChar,
        if_pos first, Char.ofNat_toNat]
    next hplain =>
      rw [List.singleton_append]
      refine (if_neg hquote).trans ((if_neg hslash).trans (if_neg hplain))

/-- A printed string is read back. -/
theorem stringRest?_flatMap (s : List Char) {fuel : Nat}
    (hfuel : (s.flatMap escapeChar).length < fuel) (seen rest : List Char) :
    stringRest? fuel true seen (s.flatMap escapeChar ++ '"' :: rest) =
      some (some (String.ofList (seen.reverse ++ s)), rest) := by
  induction s generalizing fuel seen with
  | nil =>
    obtain ⟨fuel, rfl⟩ := Nat.exists_eq_add_one_of_ne_zero (Nat.ne_zero_of_lt hfuel)
    rw [List.append_nil]
    rfl
  | cons c s ih =>
    obtain ⟨fuel, rfl⟩ := Nat.exists_eq_add_one_of_ne_zero (Nat.ne_zero_of_lt hfuel)
    have characters := List.length_pos_of_ne_nil (escapeChar_ne_nil c)
    rw [List.flatMap_cons, List.length_append] at hfuel
    rw [List.flatMap_cons, List.append_assoc, stringRest?_escapeChar, ih (by omega),
      List.reverse_cons, List.append_assoc]
    rfl

theorem string?_flatMap (s : String) (rest : List Char) :
    string? (s.toList.flatMap escapeChar ++ '"' :: rest) = some (some s, rest) := by
  have fuel : (s.toList.flatMap escapeChar).length <
      (s.toList.flatMap escapeChar ++ '"' :: rest).length + 1 := by
    rw [List.length_append]
    omega
  rw [string?, stringRest?_flatMap s.toList fuel, List.reverse_nil, List.nil_append,
    String.ofList_toList]

/-! ## Values -/

theorem skipBlanks_append {blanks : List Char} (h : ∀ c ∈ blanks, isBlank c = true)
    (cs : List Char) : skipBlanks (blanks ++ cs) = skipBlanks cs :=
  List.dropWhile_append_of_pos h

/-- A text is read as a value wherever it stands. -/
def Spells (text : List Char) (j : Json) : Prop :=
  ∀ fuel depth rest, Ends rest → value? (fuel + 1) depth (text ++ rest) = some (j, rest)

theorem spells_null : Spells ['n', 'u', 'l', 'l'] .null := fun _ _ _ _ => rfl

theorem spells_true : Spells ['t', 'r', 'u', 'e'] (.bool true) := fun _ _ _ _ => rfl

theorem spells_false : Spells ['f', 'a', 'l', 's', 'e'] (.bool false) := fun _ _ _ _ => rfl

theorem spells_quote (s : String) : Spells (quote s).toList (.string s) := fun _ _ rest _ => by
  have text : (quote s).toList ++ rest = '"' :: (s.toList.flatMap escapeChar ++ '"' :: rest) := by
    rw [quote, String.toList_ofList, List.append_assoc]
    rfl
  have opening (cs : List Char) : skipBlanks ('"' :: cs) = '"' :: cs := rfl
  rw [text, value?]
  simp only [opening, string?_flatMap]

theorem isBlank_of_isDigit (hc : c.isDigit = true) : isBlank c = false := by
  rw [Bool.eq_false_iff]
  intro hblank
  simp only [isBlank, Bool.or_eq_true, beq_iff_eq] at hblank
  rcases hblank with ((rfl | rfl) | rfl) | rfl <;> exact absurd hc (by decide)

/-- What begins with a digit is a number. -/
theorem value?_of_isDigit (hc : c.isDigit = true) (fuel depth : Nat) (cs : List Char) :
    value? (fuel + 1) depth (c :: cs) = magnitude? false (c :: cs) := by
  have noOther {first : Char} {others : List Char} (hfirst : first.isDigit = false) :
      c :: cs ≠ first :: others := by
    intro heq
    rw [(List.cons.inj heq).1, hfirst] at hc
    cases hc
  have skip : skipBlanks (c :: cs) = c :: cs :=
    List.dropWhile_cons_of_neg (by rw [isBlank_of_isDigit hc]; exact Bool.false_ne_true)
  rw [value?, skip]
  split
  case h_1 heq => cases heq
  case h_9 => rfl
  all_goals next heq => exact absurd heq (noOther rfl)

theorem spells_numeral (plusSign : Bool) (N : Numeral) : Spells (N.text plusSign) (N.json false) :=
  fun fuel depth rest h => by
    obtain ⟨c, cs, hwhole⟩ := List.exists_cons_of_ne_nil N.nonempty
    have digit : c.isDigit = true := N.isDigit c (by rw [hwhole]; exact List.mem_cons_self)
    have read := N.magnitude?_text false plusSign h
    unfold Numeral.text at read ⊢
    rw [hwhole] at read ⊢
    exact (value?_of_isDigit digit fuel depth _).trans read

theorem spells_minus_numeral (plusSign : Bool) (N : Numeral) :
    Spells ('-' :: N.text plusSign) (N.json true) :=
  fun _ _ _ h => N.magnitude?_text true plusSign h

theorem spells_natural (hn : n < 2 ^ 64) : Spells (toString n).toList (.number (.integer n)) := by
  have text : (toString n).toList = (Numeral.ofNat n).text false := by
    rw [Nat.toString_eq_ofList_toDigits, String.toList_ofList]
    exact (List.append_nil _).symm
  rw [text, ← Numeral.json_ofNat hn]
  exact spells_numeral false _

/-- The digits of a number do not begin with a zero. -/
theorem head?_ofScaled {d : Nat} (hd : 0 < d) (k : Int) :
    (Digits.ofScaled d k).digits.head? ≠ some '0' := by
  obtain ⟨z, hz⟩ := Decimal.stripped_append (Nat.toDigits 10 d)
  have digits : Nat.toDigits 10 d = (Digits.ofScaled d k).digits ++ List.replicate z '0' := hz
  have first := head?_toDigits hd
  rw [digits, List.head?_append_of_ne_nil _ (Digits.ofScaled_spec hd k).1.nonempty] at first
  exact first

/-- A finite number is read as some value. -/
theorem exists_spells_single (l : Layout) {x : Float32} (hx : x.isFinite = true) :
    ∃ j, Spells (l.single x).toList j := by
  obtain ⟨negative, m, e, hcontent⟩ := Single.isFinite_iff.1 hx
  obtain ⟨-, placed⟩ := Single.toBits_of_finite hcontent
  obtain ⟨N, hN⟩ : ∃ N : Numeral, (l.single x).toList =
      if negative && (m != 0 || l.signedZero) then '-' :: N.text l.plusSign else N.text l.plusSign := by
    rw [Layout.single, hcontent, Layout.text]
    rcases Nat.eq_zero_or_pos m with rfl | hm
    · refine ⟨.zero, ?_⟩
      rw [if_pos rfl, bne_self_eq_false, Bool.false_or]
      split <;> rfl
    · obtain ⟨d, k, hdigits, hd, -⟩ := Decimal.shortest_spec placed hm l.tie
      obtain ⟨N, hN⟩ := exists_numeral (Digits.ofScaled_spec hd k).1 (head?_ofScaled hd k) l
      refine ⟨N, ?_⟩
      rw [if_neg hm.ne', hdigits, String.toList_ofList, hN, bne_iff_ne.2 hm.ne', Bool.true_or,
        Bool.and_true]
  rw [hN]
  split
  · exact ⟨_, spells_minus_numeral _ N⟩
  · exact ⟨_, spells_numeral _ N⟩

/-! ## Objects -/

theorem isBlank_of_mem_newline (depth : Nat) : ∀ c ∈ (newline depth).toList, isBlank c = true := by
  intro c hc
  rw [newline, String.join_eq, String.toList_append, String.toList_ofList, List.map_replicate,
    List.mem_append, String.toList_ofList, List.mem_flatten] at hc
  rcases hc with hc | ⟨step, hstep, hc⟩
  · rw [List.mem_singleton.1 hc]
    rfl
  · rw [List.eq_of_mem_replicate hstep] at hc
    rw [List.eq_of_mem_replicate (n := 2) hc]
    rfl

/-- A value of a document is printed as a text that is read as another one. -/
def Rereads (l : Layout) (v j : Json) : Prop := ∀ depth, Spells (prettyAt l depth v).toList j

section Member

variable {blanks text tail inside behind : List Char} {name : String} {fuel depth : Nat}
  {seen : List (String × Json)}

/-- A name and a value are read, and what follows decides whether others are. -/
theorem members?_eq (hopening : skipBlanks cs = '"' :: inside)
    (hname : string? inside = some (some name, ':' :: behind))
    (hvalue : value? (fuel + 1) depth behind = some (j, tail)) :
    (∀ rest, skipBlanks tail = ',' :: rest → members? (fuel + 2) depth (some seen) cs =
        members? (fuel + 1) depth (some ((name, j) :: seen)) rest) ∧
      ∀ rest, skipBlanks tail = '\x7d' :: rest → members? (fuel + 2) depth (some seen) cs =
        some (.object ((name, j) :: seen).reverse, rest) := by
  have colon : skipBlanks (':' :: behind) = ':' :: behind := rfl
  rw [members?]
  constructor
  · intro rest hrest
    simp only [hopening, hname, colon, hvalue, hrest]
  · intro rest hrest
    simp only [hopening, hname, colon, hvalue, hrest]

variable (hblanks : ∀ c ∈ blanks, isBlank c = true) (h : Spells text j) (htail : Ends tail)

include hblanks

theorem skipBlanks_member (name : String) (text tail : List Char) :
    skipBlanks (blanks ++ ((quote name).toList ++ ':' :: ' ' :: text ++ tail)) =
      '"' :: (name.toList.flatMap escapeChar ++ '"' :: ':' :: ' ' :: (text ++ tail)) := by
  rw [skipBlanks_append hblanks, quote, String.toList_ofList, List.append_assoc, List.append_assoc]
  rfl

include h htail

/-- A member is read, and others follow. -/
theorem members?_comma (hcomma : skipBlanks tail = ',' :: cs) :
    members? (fuel + 2) depth (some seen)
        (blanks ++ ((quote name).toList ++ ':' :: ' ' :: text ++ tail)) =
      members? (fuel + 1) depth (some ((name, j) :: seen)) cs :=
  (members?_eq (skipBlanks_member hblanks name text tail) (string?_flatMap name _)
    (h fuel depth tail htail)).1 cs hcomma

/-- A member is read, and it is the last one. -/
theorem members?_brace (hbrace : skipBlanks tail = '\x7d' :: cs) :
    members? (fuel + 2) depth (some seen)
        (blanks ++ ((quote name).toList ++ ':' :: ' ' :: text ++ tail)) =
      some (.object ((name, j) :: seen).reverse, cs) :=
  (members?_eq (skipBlanks_member hblanks name text tail) (string?_flatMap name _)
    (h fuel depth tail htail)).2 cs hbrace

end Member

/-- The text of a member. -/
theorem toList_prettyMember (l : Layout) (depth : Nat) (name : String) (v : Json) :
    (quote name ++ ": " ++ prettyAt l depth v).toList =
      (quote name).toList ++ ':' :: ' ' :: (prettyAt l depth v).toList := by
  rw [String.toList_append, String.toList_append, List.append_assoc]
  rfl

/-- Members of the same names, the values of the one printed and those of the other read. -/
def RereadMembers (l : Layout) : List (String × Json) → List (String × Json) → Prop :=
  List.Forall₂ fun m m' => m.1 = m'.1 ∧ Rereads l m.2 m'.2

/-- The members of an object, each on a line of its own, are read one after the other. -/
theorem members?_prettyMembers {l : Layout} {ms js : List (String × Json)}
    (h : RereadMembers l ms js) (hne : ms ≠ []) (steps : Nat) {fuel : Nat}
    (hfuel : ms.length < fuel) (depth : Nat) (seen : List (String × Json)) (blanks : List Char)
    (hblanks : ∀ c ∈ blanks, isBlank c = true) (rest : List Char) :
    members? fuel depth (some seen) (blanks ++
        ((',' :: (newline steps).toList).intercalate
            ((prettyMembers l steps ms).map String.toList) ++
          ((newline 0).toList ++ '\x7d' :: rest))) =
      some (.object (seen.reverse ++ js), rest) := by
  have last : skipBlanks ((newline 0).toList ++ '\x7d' :: rest) = '\x7d' :: rest :=
    skipBlanks_append (isBlank_of_mem_newline 0) _
  have endsLast : Ends ((newline 0).toList ++ '\x7d' :: rest) := fun c hc => by
    cases hc
    decide
  induction h generalizing fuel seen blanks with
  | nil => exact absurd rfl hne
  | @cons m m' ms js hm hms ih =>
    obtain ⟨name, v⟩ := m
    obtain ⟨_, j⟩ := m'
    obtain ⟨rfl, hv⟩ := hm
    obtain ⟨fuel, rfl⟩ : ∃ f, fuel = f + 2 :=
      ⟨fuel - 2, by rw [List.length_cons] at hfuel; omega⟩
    cases ms with
    | nil =>
      cases hms
      rw [prettyMembers, prettyMembers, List.map_singleton, List.intercalate_singleton,
        toList_prettyMember, members?_brace hblanks (hv steps) endsLast last, List.reverse_cons]
    | cons m ms =>
      have next := ih (List.cons_ne_nil _ _) (Nat.lt_of_succ_lt_succ hfuel) ((name, j) :: seen)
        _ (isBlank_of_mem_newline steps)
      rw [prettyMembers, List.map_cons]
      obtain ⟨part, parts, hparts⟩ : ∃ part parts,
          (prettyMembers l steps (m :: ms)).map String.toList = part :: parts := ⟨_, _, rfl⟩
      rw [hparts] at next ⊢
      rw [List.intercalate_cons_cons, toList_prettyMember, List.append_assoc, List.append_assoc,
        List.cons_append, members?_comma hblanks (hv steps) (fun c hc => by cases hc; decide) rfl]
      refine next.trans ?_
      rw [List.reverse_cons, List.append_assoc]
      rfl

theorem length_le_intercalate (c : Char) (sep : List Char) (parts : List (List Char)) :
    parts.length ≤ ((c :: sep).intercalate parts).length + 1 := by
  induction parts with
  | nil => exact Nat.zero_le _
  | cons part parts ih =>
    cases parts with
    | nil => exact Nat.le_add_left _ _
    | cons next parts =>
      rw [List.intercalate_cons_cons, List.length_append, List.length_append]
      simp only [List.length_cons] at ih ⊢
      omega

theorem length_prettyMembers (l : Layout) (depth : Nat) (ms : List (String × Json)) :
    (prettyMembers l depth ms).length = ms.length := by
  induction ms with
  | nil => rfl
  | cons m ms ih => rw [prettyMembers, List.length_cons, ih, List.length_cons]

/-- A printed object is read back, member by member. -/
theorem parse?_pretty {l : Layout} {ms js : List (String × Json)} (h : RereadMembers l ms js)
    (hne : ms ≠ []) : parse? (pretty l (.object ms)) = some (.object js) := by
  obtain ⟨⟨name, v⟩, others, rfl⟩ := List.exists_cons_of_ne_nil hne
  obtain ⟨part, parts, hparts, hpart⟩ : ∃ part parts,
      prettyMembers l 1 ((name, v) :: others) = part :: parts ∧
        part = quote name ++ ": " ++ prettyAt l 1 v := ⟨_, _, rfl, rfl⟩
  obtain ⟨inside, hinside⟩ : ∃ inside,
      (',' :: (newline 1).toList).intercalate ((part :: parts).map String.toList) ++
        ((newline 0).toList ++ '\x7d' :: []) = inside := ⟨_, rfl⟩
  have text : (pretty l (.object ((name, v) :: others))).toList =
      '\x7b' :: ((newline 1).toList ++ inside) := by
    rw [pretty, prettyAt, hparts, enclose, ← hinside]
    simp only [List.isEmpty_cons, Bool.false_eq_true, if_false, String.toList_append,
      String.toList_intercalate, List.append_assoc]
    rfl
  have fuel : ((name, v) :: others).length <
      2 * ('\x7b' :: ((newline 1).toList ++ inside)).length + 1 := by
    have count := length_le_intercalate ',' (newline 1).toList ((part :: parts).map String.toList)
    rw [List.length_map, ← hparts, length_prettyMembers] at count
    rw [← hinside, ← hparts]
    simp only [List.length_cons, List.length_append] at count ⊢
    omega
  have opening : ∃ behind, inside = '"' :: behind := by
    rw [← hinside, hpart, List.map_cons, toList_prettyMember, quote, String.toList_ofList]
    cases parts with
    | nil => exact ⟨_, rfl⟩
    | cons => exact ⟨_, rfl⟩
  -- the blanks before the first member are skipped before the members are read
  have read := members?_prettyMembers h hne 1 fuel 1 [] [] (fun _ hc => nomatch hc) []
  rw [hparts, List.nil_append, hinside] at read
  obtain ⟨behind, hbehind⟩ := opening
  have skip : skipBlanks ((newline 1).toList ++ inside) = '"' :: behind := by
    rw [skipBlanks_append (isBlank_of_mem_newline 1), hbehind]
    rfl
  have value : value? (2 * ('\x7b' :: ((newline 1).toList ++ inside)).length + 2) 0
      ('\x7b' :: ((newline 1).toList ++ inside)) = some (.object js, []) := by
    have brace (cs : List Char) : skipBlanks ('\x7b' :: cs) = '\x7b' :: cs := rfl
    rw [value?, brace]
    simp only [skip]
    show (members? _ 1 (some []) ('"' :: behind)).map (fun p => (container 1 p.1, p.2)) = _
    rw [← hbehind, read]
    rfl
  rw [parse?, text]
  simp only [value]
  rfl

end Candela.Json
