import Candela.Proofs.Shader.Braces
import Candela.Proofs.Text.Words

/-!
# The functions that a text defines

`definedFunctions` reads a text as far as it takes to see which functions it defines: comments are
left out, what stands in braces is skipped, and of the rest the names that follow the keyword are
kept. It knows nothing of how the text was written. The text of a function whose title has no line
feed and whose blocks have no braces defines this function and no other
(`Function.wordsOf_outside_text`), and so do the functions of a library one after another
(`Library.definedFunctions_body`).
-/

namespace Candela.Shader

variable {a b : List Char} {word keyword : String} {f : Function}

/-! ## Reading -/

/-- Whether a character may stand in a name. -/
def isNameChar (c : Char) : Bool := c.isAlphanum || c == '_'

/-- The names, keywords and numbers of a text, in their order. -/
def wordsOf (cs : List Char) : List String :=
  (Text.words (fun c => !isNameChar c) cs).map String.ofList

/-- What stands outside of all braces, if so many are open at the beginning. A brace counts as a
blank. -/
def outside : Nat → List Char → List Char
  | _, [] => []
  | depth, c :: rest =>
    if c = '\x7b' then ' ' :: outside (depth + 1) rest
    else if c = '\x7d' then ' ' :: outside (depth - 1) rest
    else if depth = 0 then c :: outside depth rest
    else outside depth rest

/-- The words that follow a keyword. -/
def following (keyword : String) : List String → List String
  | word :: next :: rest =>
    if word = keyword then next :: following keyword rest else following keyword (next :: rest)
  | _ => []

/-- The lines of code of a text, put together again. -/
def codeChars (text : String) : List Char :=
  (codeLines text).flatMap fun line => line.toList ++ ['\n']

/-- The names of the functions that a text defines. -/
def definedFunctions (text : String) : List String :=
  following "fn" (wordsOf (outside 0 (codeChars text)))

/-! ## Words -/

/-- The words of two texts with a character between them that stands in no name. -/
theorem wordsOf_append {c : Char} (hc : isNameChar c = false) (a b : List Char) :
    wordsOf (a ++ c :: b) = wordsOf a ++ wordsOf b := by
  have hblank : (fun c => !isNameChar c) c = true := by simp [hc]
  rw [wordsOf, Text.words_append_blank hblank, List.map_append]
  rfl

/-- A character that stands in no name is in no word. -/
theorem wordsOf_cons {c : Char} (hc : isNameChar c = false) (cs : List Char) :
    wordsOf (c :: cs) = wordsOf cs := wordsOf_append hc [] cs

/-- A name is one word. -/
theorem wordsOf_name {name : String} (hne : name ≠ "")
    (h : ∀ c ∈ name.toList, isNameChar c = true) :
    wordsOf name.toList = [name] := by
  have hne' : name.toList ≠ [] := fun hnil => hne (String.toList_eq_nil_iff.1 hnil)
  have hblank : ∀ c ∈ name.toList, (fun c => !isNameChar c) c = false := by
    intro c hc
    simp [h c hc]
  rw [wordsOf, Text.words_of_forall_not hne' hblank, List.map_singleton, String.ofList_toList]

/-- What is no keyword is passed over. -/
theorem following_cons (h : word ≠ keyword) (rest : List String) :
    following keyword (word :: rest) = following keyword rest := by
  cases rest with
  | nil => rfl
  | cons next rest => rw [following, if_neg h]

/-! ## Braces -/

/-- Nothing is seen of a text without braces that stands between braces. -/
theorem outside_succ_append (h : ∀ c ∈ a, isBrace c = false) (depth : Nat) (b : List Char) :
    outside (depth + 1) (a ++ b) = outside (depth + 1) b := by
  induction a with
  | nil => rfl
  | cons c a ih =>
    obtain ⟨hc, ha⟩ := List.forall_mem_cons.1 h
    simp only [isBrace, Bool.or_eq_false_iff, beq_eq_false_iff_ne] at hc
    rw [List.cons_append, outside, if_neg hc.1, if_neg hc.2, if_neg (Nat.succ_ne_zero depth), ih ha]

/-- All is seen of a text without braces that stands outside. -/
theorem outside_zero_append (h : ∀ c ∈ a, isBrace c = false) (b : List Char) :
    outside 0 (a ++ b) = a ++ outside 0 b := by
  induction a with
  | nil => rfl
  | cons c a ih =>
    obtain ⟨hc, ha⟩ := List.forall_mem_cons.1 h
    simp only [isBrace, Bool.or_eq_false_iff, beq_eq_false_iff_ne] at hc
    rw [List.cons_append, outside, if_neg hc.1, if_neg hc.2, if_pos rfl, ih ha, List.cons_append]

/-- A text in braces counts as two blanks. -/
theorem outside_braces (h : ∀ c ∈ a, isBrace c = false) (b : List Char) :
    outside 0 ('\x7b' :: (a ++ '\x7d' :: b)) = ' ' :: ' ' :: outside 0 b := by
  have hclose : outside 1 ('\x7d' :: b) = ' ' :: outside 0 b := by
    rw [outside, if_neg (by decide), if_pos rfl]
  rw [outside, if_pos rfl, outside_succ_append h, hclose]

/-! ## Lines of code -/

/-- A line that begins with anything but a blank or a slash is no comment. -/
theorem isComment_eq_false {line : String} {c : Char} (hhead : line.toList.head? = some c)
    (hblank : c ≠ ' ') (hslash : c ≠ '/') : isComment line = false := by
  obtain ⟨rest, hline⟩ : ∃ rest, line.toList = c :: rest := List.head?_eq_some_iff.1 hhead
  have hdrop : line.toList.dropWhile (· == ' ') = c :: rest := by
    rw [hline, List.dropWhile_cons_of_neg (by simp [hblank])]
  rw [isComment, hdrop]
  simp [List.isPrefixOf, Ne.symm hslash]

/-- A line that is no comment is a line of code. -/
theorem codeLines_line {line : String} (hline : '\n' ∉ line.toList)
    (hlast : line.toList.getLast? ≠ some '\r') (hcode : isComment line = false) (b : String) :
    codeLines (line ++ "\n" ++ b) = line :: codeLines b := by
  rw [codeLines, Text.lines_line_of_ne hline hlast, List.filter_cons_of_pos]
  · rfl
  · simp [hcode]

/-- The lines of code of texts that are put together, if the first one ends with a line feed. -/
theorem codeChars_append_newline (a b : String) :
    codeChars (a ++ "\n" ++ b) = codeChars (a ++ "\n") ++ codeChars b := by
  rw [codeChars, codeLines_append_newline, List.flatMap_append]
  rfl

/-- The lines of code of a text have no braces if the text has none. -/
theorem isBrace_of_mem_codeChars {text : String} (h : Braceless text) :
    ∀ c ∈ codeChars text, isBrace c = false := by
  intro c hc
  obtain ⟨line, hline, hc⟩ := List.mem_flatMap.1 hc
  rcases List.mem_append.1 hc with hc | hc
  · exact h c (Text.mem_of_mem_lines (List.mem_of_mem_filter hline) hc)
  · rw [List.mem_singleton.1 hc]
    decide

/-! ## Functions -/

/-- The code of a function up to its opening brace. -/
def Function.heading (f : Function) : String :=
  "fn " ++ f.name ++ "(shading: ptr<function, ShadingContext>) "

/-- The code of some blocks is nothing, or it is an empty line and some more lines. -/
theorem exists_join_code_eq (blocks : List Block) :
    blocks = [] ∨ ∃ rest, String.join (blocks.map Block.code) = "\n" ++ (rest ++ "\n") := by
  induction blocks with
  | nil => exact .inl rfl
  | cons b blocks ih =>
    obtain ⟨rest, -, hcode⟩ := b.exists_text_eq
    refine .inr ?_
    rw [List.map_cons, String.join_cons, hcode]
    rcases ih with rfl | ⟨rest', hrest'⟩
    · exact ⟨rest, by simp⟩
    · refine ⟨rest ++ "\n" ++ ("\n" ++ rest'), ?_⟩
      rw [hrest']
      simp only [String.append_assoc]

/-- The heading of a function, ended by an opening brace and maybe a closing one, is a line of
code. -/
theorem Function.codeLines_heading_code (hname : '\n' ∉ f.name.toList) {braces : String}
    (hbraces : braces = "\x7b" ∨ braces = "\x7b\x7d") (b : String) :
    codeLines (f.heading ++ braces ++ "\n" ++ b) = (f.heading ++ braces) :: codeLines b := by
  refine codeLines_line ?_ ?_ ?_ b
  · unfold heading
    simp only [String.toList_append, List.mem_append, not_or]
    refine ⟨⟨⟨by decide, hname⟩, by decide⟩, ?_⟩
    rcases hbraces with rfl | rfl <;> decide
  · rcases hbraces with rfl | rfl <;> simp [String.toList_append, List.getLast?_append]
  · refine isComment_eq_false (c := 'f') ?_ (by decide) (by decide)
    unfold heading
    simp only [String.toList_append, List.head?_append]
    rfl

/-- The lines of code of a function are its heading and, in braces, text without braces. -/
theorem Function.exists_codeChars_eq (hname : '\n' ∉ f.name.toList)
    (hblocks : ∀ b ∈ f.blocks, Braceless b.code) :
    ∃ inner, (∀ c ∈ inner, isBrace c = false) ∧
      codeChars f.code = f.heading.toList ++ '\x7b' :: (inner ++ ['\x7d', '\n', '\n']) := by
  have hcode : f.code =
      f.heading ++ "\x7b" ++ (String.join (f.blocks.map Block.code) ++ "\x7d\n\n") := by
    simp only [Function.code, heading, String.append_assoc]
    rfl
  rcases exists_join_code_eq f.blocks with hnil | ⟨rest, hrest⟩
  · -- a function without blocks is one line
    have hone : f.code = f.heading ++ "\x7b\x7d" ++ "\n" ++ "\n" := by
      rw [hcode, hnil, List.map_nil, String.join_nil, String.empty_append]
      simp only [String.append_assoc]
      rfl
    refine ⟨[], List.forall_mem_nil _, ?_⟩
    have hlast : codeLines "\n" = [""] := by decide
    rw [codeChars, hone, f.codeLines_heading_code hname (.inr rfl), hlast]
    simp
  · have hmany : f.code = f.heading ++ "\x7b" ++ "\n" ++ (rest ++ "\n" ++ "\x7d\n\n") := by
      rw [hcode, hrest]
      simp only [String.append_assoc]
    have hbraceless : Braceless ("\n" ++ (rest ++ "\n")) := by
      rw [← hrest]
      refine .join fun part hpart => ?_
      obtain ⟨b, hb, rfl⟩ := List.mem_map.1 hpart
      exact hblocks b hb
    refine ⟨'\n' :: codeChars (rest ++ "\n"), ?_, ?_⟩
    · intro c hc
      rcases List.mem_cons.1 hc with rfl | hc
      · decide
      · exact isBrace_of_mem_codeChars (Braceless.append_iff.1 hbraceless).2 c hc
    · have hlast : codeLines "\x7d\n\n" = ["\x7d", ""] := by decide
      rw [codeChars, hmany, f.codeLines_heading_code hname (.inl rfl), codeLines_append_newline, hlast,
        codeChars]
      simp

/-- What is read of a heading. -/
theorem Function.wordsOf_heading (hne : f.name ≠ "")
    (hname : ∀ c ∈ f.name.toList, isNameChar c = true) :
    wordsOf f.heading.toList = ["fn", f.name, "shading", "ptr", "function", "ShadingContext"] := by
  have hsplit : f.heading.toList =
      "fn".toList ++ ' ' :: (f.name.toList ++
        '(' :: "shading: ptr<function, ShadingContext>) ".toList) := by
    unfold heading
    simp only [String.toList_append, List.append_assoc]
    rfl
  have hfn : wordsOf "fn".toList = ["fn"] := by decide
  have hparameter : wordsOf "shading: ptr<function, ShadingContext>) ".toList =
      ["shading", "ptr", "function", "ShadingContext"] := by decide +kernel
  rw [hsplit, wordsOf_append (by decide), wordsOf_append (by decide), wordsOf_name hne hname, hfn,
    hparameter]
  rfl

/-- What is read of the text of a function outside of its braces is its heading. -/
theorem Function.wordsOf_outside_text (htitle : '\n' ∉ f.title.toList) (hne : f.name ≠ "")
    (hname : ∀ c ∈ f.name.toList, isNameChar c = true)
    (hblocks : ∀ b ∈ f.blocks, Braceless b.code) (rest : List Char) :
    wordsOf (outside 0 (codeChars f.text ++ rest)) =
      ["fn", f.name, "shading", "ptr", "function", "ShadingContext"] ++
        wordsOf (outside 0 rest) := by
  have hfeed : '\n' ∉ f.name.toList := fun hmem => absurd (hname _ hmem) (by decide)
  have hbraces : Braceless f.name := fun c hc => isBrace_eq_false (hname c hc) (by decide)
  have hheading : Braceless f.heading := .append (.append (by decide) hbraces) (by decide)
  obtain ⟨inner, hinner, hcode⟩ := f.exists_codeChars_eq hfeed hblocks
  have hchars : codeChars f.text ++ rest =
      f.heading.toList ++ '\x7b' :: (inner ++ '\x7d' :: '\n' :: '\n' :: rest) := by
    rw [codeChars, f.codeLines_text htitle, ← codeChars, hcode]
    simp
  have hend : outside 0 ('\n' :: '\n' :: rest) = '\n' :: '\n' :: outside 0 rest :=
    outside_zero_append (a := ['\n', '\n']) (by simp [isBrace]) rest
  rw [hchars, outside_zero_append hheading, outside_braces hinner, hend,
    wordsOf_append (by decide), f.wordsOf_heading hne hname, wordsOf_cons (by decide),
    wordsOf_cons (by decide), wordsOf_cons (by decide)]

/-- The functions that are defined by the texts of some functions are these functions. -/
theorem definedFunctions_join {functions : List Function}
    (htitle : ∀ f ∈ functions, '\n' ∉ f.title.toList)
    (hname : ∀ f ∈ functions, f.name ≠ "" ∧ ∀ c ∈ f.name.toList, isNameChar c = true)
    (hblocks : ∀ f ∈ functions, ∀ b ∈ f.blocks, Braceless b.code) :
    definedFunctions (String.join (functions.map Function.text)) = functions.map (·.name) := by
  unfold definedFunctions
  induction functions with
  | nil => decide
  | cons f functions ih =>
    have hih := ih (fun f' hf' => htitle f' (List.mem_cons_of_mem _ hf'))
      (fun f' hf' => hname f' (List.mem_cons_of_mem _ hf'))
      fun f' hf' => hblocks f' (List.mem_cons_of_mem _ hf')
    obtain ⟨hne, hchars⟩ := hname f List.mem_cons_self
    obtain ⟨init, hinit⟩ : ∃ init, f.text = init ++ "\n" := by
      have hend : "\x7d\n\n" = "\x7d\n" ++ "\n" := rfl
      exact ⟨_, by rw [Function.text, hend, ← String.append_assoc]⟩
    have hsplit : codeChars (String.join ((f :: functions).map Function.text)) =
        codeChars f.text ++ codeChars (String.join (functions.map Function.text)) := by
      rw [List.map_cons, String.join_cons, hinit, codeChars_append_newline]
    rw [hsplit, f.wordsOf_outside_text (htitle f List.mem_cons_self) hne hchars
      (hblocks f List.mem_cons_self)]
    show following "fn" ("fn" :: f.name :: "shading" :: "ptr" :: "function" :: "ShadingContext" ::
      wordsOf (outside 0 (codeChars (String.join (functions.map Function.text))))) = _
    rw [following, if_pos rfl, following_cons (by decide), following_cons (by decide),
      following_cons (by decide), following_cons (by decide), hih, List.map_cons]

/-- Other texts are read in the same way. -/
example : definedFunctions
    "// fn hidden() \x7b\x7d\nfn first(n: u32) \x7b\n    if n \x7b fn inner \x7d\n\x7d fn second() \x7b\x7d" =
    ["first", "second"] := by
  decide +kernel

end Candela.Shader
