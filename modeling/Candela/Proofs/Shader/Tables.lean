import Candela.Proofs.Shader.Functions
import Candela.Proofs.Shader.Sampling
import Candela.Proofs.Text.Numeral

/-!
# Function tables and dispatchers

The functions of surfaces and the functions of lights are numbered apart but named together. After
any requests the tables list every function of the body once, under a name of its own, a table only
grows at its end, and the dispatcher of a table calls its entries by their index
(`after_tabulated`). What is said about the texts is what two readers find in them that know
nothing of how they were written: `definedFunctions` for the body and `casesOf` for a dispatcher.
-/

namespace Candela.Shader

variable {l : Library} {title : String} {g : Graph} {role : Role}

/-! ## Dispatchers -/

/-- The number in a line of a dispatcher and the name of the function that is called for it. -/
def caseOf? (line : String) : Option (Nat × String) :=
  match wordsOf line.toList with
  | ["case", label, function, "shading"] =>
    if label.toList.getLast? = some 'u' then
      (Text.digits? label.toList.dropLast).map fun n => (n, function)
    else none
  | _ => none

/-- The cases of a dispatcher, in their order. -/
def casesOf (text : String) : List (Nat × String) := (Text.lines text).filterMap caseOf?

/-- A line whose first word is another is no case. -/
theorem caseOf?_eq_none {line word : String} {start rest : List Char}
    (hline : line.toList = start ++ ' ' :: rest) (hstart : wordsOf start = [word])
    (hword : word ≠ "case") : caseOf? line = none := by
  have hwords : wordsOf line.toList = word :: wordsOf rest := by
    rw [hline, wordsOf_append (by decide), hstart]
    rfl
  unfold caseOf?
  rw [hwords]
  split
  · next heq => exact absurd (List.cons.inj heq).1 hword
  · rfl

/-- The line of a case. -/
def caseLine (function : String) (index : Nat) : String :=
  "        case " ++ toString index ++ "u: \x7b " ++ function ++ "(shading); \x7d"

/-- The line of a case is read as the case. -/
theorem caseOf?_caseLine {function : String} (hne : function ≠ "")
    (hchars : ∀ c ∈ function.toList, isNameChar c = true) (index : Nat) :
    caseOf? (caseLine function index) = some (index, function) := by
  let label := toString index ++ "u"
  have hlabel : label.toList = Nat.toDigits 10 index ++ ['u'] := by
    rw [String.toList_append, Nat.toString_eq_ofList_toDigits, String.toList_ofList]
    rfl
  have hlabelChars : ∀ c ∈ label.toList, isNameChar c = true := by
    intro c hc
    rw [hlabel] at hc
    rcases List.mem_append.1 hc with hc | hc
    · have hdigit : c.isDigit = true := Nat.isDigit_of_mem_toDigits (by decide) (by decide) hc
      simp [isNameChar, Char.isAlphanum, hdigit]
    · rw [List.mem_singleton.1 hc]
      decide
  have hlabelNe : label ≠ "" := by
    intro hnil
    have hchars := congrArg String.toList hnil
    rw [hlabel] at hchars
    simp at hchars
  have hsplit : (caseLine function index).toList =
      "        case".toList ++ ' ' :: (label.toList ++ ':' :: ' ' :: '\x7b' :: ' ' ::
        (function.toList ++ '(' :: "shading); \x7d".toList)) := by
    simp only [caseLine, label, String.toList_append, List.append_assoc]
    rfl
  have hcase : wordsOf "        case".toList = ["case"] := by decide
  have hend : wordsOf "shading); \x7d".toList = ["shading"] := by decide
  have hwords : wordsOf (caseLine function index).toList =
      ["case", label, function, "shading"] := by
    rw [hsplit, wordsOf_append (by decide), wordsOf_append (by decide), wordsOf_cons (by decide),
      wordsOf_cons (by decide), wordsOf_cons (by decide), wordsOf_append (by decide),
      wordsOf_name hlabelNe hlabelChars, wordsOf_name hne hchars, hcase, hend]
    rfl
  simp only [caseOf?, hwords, hlabel, List.getLast?_concat, List.dropLast_concat, if_true,
    Text.digits?_toDigits, Option.map_some]

/-- The cases of lines that are put together. A line ends with some text that has no carriage return
at its end. -/
theorem casesOf_line {line ending : String} {last : Char} (hline : '\n' ∉ line.toList)
    (hending : '\n' ∉ ending.toList) (hlast : ending.toList.getLast? = some last)
    (hreturn : last ≠ '\r') (b : String) :
    casesOf (line ++ ending ++ "\n" ++ b) = (caseOf? (line ++ ending)).toList ++ casesOf b := by
  have hfeed : '\n' ∉ (line ++ ending).toList := by
    rw [String.toList_append, List.mem_append]
    exact not_or.2 ⟨hline, hending⟩
  have hlast' : (line ++ ending).toList.getLast? ≠ some '\r' := by
    rw [String.toList_append, List.getLast?_append, hlast]
    exact fun heq => hreturn (Option.some.inj heq)
  rw [casesOf, Text.lines_line_of_ne hfeed hlast', List.filterMap_cons]
  cases caseOf? (line ++ ending) <;> rfl

/-- The lines of the cases of some functions are read as these cases. -/
theorem casesOf_join {functions : List String}
    (h : ∀ f ∈ functions, f ≠ "" ∧ ∀ c ∈ f.toList, isNameChar c = true) (start : Nat) (b : String) :
    casesOf (String.join ((functions.zipIdx start).map fun e => caseLine e.1 e.2 ++ "\n") ++ b) =
      (functions.zipIdx start).map Prod.swap ++ casesOf b := by
  induction functions generalizing start with
  | nil => simp
  | cons function rest ih =>
    obtain ⟨⟨hne, hchars⟩, hrest⟩ := List.forall_mem_cons.1 h
    have hfeed : '\n' ∉ ("        case " ++ toString start ++ "u: \x7b " ++ function).toList := by
      have hdigits : '\n' ∉ (toString start).toList := by
        intro hmem
        rw [Nat.toString_eq_ofList_toDigits, String.toList_ofList] at hmem
        exact absurd (Nat.isDigit_of_mem_toDigits (by decide) (by decide) hmem) (by decide)
      have hfunction : '\n' ∉ function.toList := fun hmem => absurd (hchars _ hmem) (by decide)
      simp only [String.toList_append, List.mem_append, not_or]
      exact ⟨⟨⟨by decide, hdigits⟩, by decide⟩, hfunction⟩
    have hbrace : "(shading); \x7d".toList.getLast? = some '\x7d' := by decide
    rw [List.zipIdx_cons, List.map_cons, String.join_cons, String.append_assoc, caseLine,
      casesOf_line hfeed (by decide) hbrace (by decide), ← caseLine,
      caseOf?_caseLine hne hchars, ih hrest, List.map_cons]
    rfl

/-- The cases of a dispatcher are the functions of its table by their index. -/
theorem casesOf_dispatcher {name selector : String} {functions : List String}
    (hname : '\n' ∉ name.toList) (hselector : '\n' ∉ selector.toList)
    (h : ∀ f ∈ functions, f ≠ "" ∧ ∀ c ∈ f.toList, isNameChar c = true) :
    casesOf (dispatcher name selector functions) = functions.zipIdx.map Prod.swap := by
  have hcase : ∀ e : String × Nat, "        case " ++ toString e.2 ++ "u: \x7b " ++ e.1 ++
      "(shading); \x7d\n" = caseLine e.1 e.2 ++ "\n" := by
    intro e
    have hend : "(shading); \x7d\n" = "(shading); \x7d" ++ "\n" := rfl
    simp only [hend, caseLine, String.append_assoc]
  have hsplit : dispatcher name selector functions =
      "fn " ++ name ++ "(" ++ selector ++ ": u32, shading: ptr<function, ShadingContext>) \x7b" ++
        "\n" ++ ("    switch " ++ selector ++ " \x7b" ++ "\n" ++
          (String.join (functions.zipIdx.map fun e => caseLine e.1 e.2 ++ "\n") ++
            "        default: \x7b\x7d\n    \x7d\n\x7d\n\n")) := by
    have hparameters : ": u32, shading: ptr<function, ShadingContext>) \x7b\n" =
        ": u32, shading: ptr<function, ShadingContext>) \x7b" ++ "\n" := rfl
    have hbrace : " \x7b\n" = " \x7b" ++ "\n" := rfl
    unfold dispatcher
    rw [List.map_congr_left fun e _ => hcase e]
    simp only [hparameters, hbrace, String.append_assoc]
  have hhead : caseOf? ("fn " ++ name ++ "(" ++ selector ++
      ": u32, shading: ptr<function, ShadingContext>) \x7b") = none := by
    have hline : ("fn " ++ name ++ "(" ++ selector ++
        ": u32, shading: ptr<function, ShadingContext>) \x7b").toList =
          "fn".toList ++ ' ' :: (name ++ "(" ++ selector ++
            ": u32, shading: ptr<function, ShadingContext>) \x7b").toList := by
      simp only [String.toList_append, List.append_assoc]
      rfl
    have hstart : wordsOf "fn".toList = ["fn"] := by decide
    exact caseOf?_eq_none hline hstart (by decide)
  have hswitch : caseOf? ("    switch " ++ selector ++ " \x7b") = none := by
    have hline : ("    switch " ++ selector ++ " \x7b").toList =
        "    switch".toList ++ ' ' :: (selector ++ " \x7b").toList := by
      simp only [String.toList_append, List.append_assoc]
      rfl
    have hstart : wordsOf "    switch".toList = ["switch"] := by decide
    exact caseOf?_eq_none hline hstart (by decide)
  have hdefault : casesOf "        default: \x7b\x7d\n    \x7d\n\x7d\n\n" = [] := by decide
  have hheadFeed : '\n' ∉ ("fn " ++ name ++ "(" ++ selector).toList := by
    simp only [String.toList_append, List.mem_append, not_or]
    exact ⟨⟨⟨by decide, hname⟩, by decide⟩, hselector⟩
  have hswitchFeed : '\n' ∉ ("    switch " ++ selector).toList := by
    simp only [String.toList_append, List.mem_append, not_or]
    exact ⟨by decide, hselector⟩
  have hheadBrace : ": u32, shading: ptr<function, ShadingContext>) \x7b".toList.getLast? =
      some '\x7b' := by decide
  have hswitchBrace : " \x7b".toList.getLast? = some '\x7b' := by decide
  rw [hsplit, casesOf_line hheadFeed (by decide) hheadBrace (by decide), hhead,
    casesOf_line hswitchFeed (by decide) hswitchBrace (by decide), hswitch,
    casesOf_join h, hdefault]
  simp

/-! ## Tables -/

/-- A name of a function: a prefix and lower-case letters, digits and underscores. -/
def Spelled (name : String) : Prop :=
  ∃ rest, name = "s_" ++ rest ∧ ∀ c ∈ rest.toList, Text.isSnakeChar c = true

/-- What may stand in a snake identifier may stand in a name. -/
theorem isNameChar_of_isSnakeChar {c : Char} (h : Text.isSnakeChar c = true) :
    isNameChar c = true := by
  simp only [Text.isSnakeChar, Bool.or_eq_true] at h
  simp only [isNameChar, Char.isAlphanum, Char.isAlpha, Bool.or_eq_true]
  rcases h with (h | h) | h
  · exact .inl (.inl (.inr h))
  · exact .inl (.inr h)
  · exact .inr h

/-- The name of a function is one word. -/
theorem Spelled.isName {name : String} (h : Spelled name) :
    name ≠ "" ∧ ∀ c ∈ name.toList, isNameChar c = true := by
  obtain ⟨rest, rfl, hrest⟩ := h
  refine ⟨fun hnil => ?_, fun c hc => ?_⟩
  · have hchars := congrArg String.toList hnil
    rw [String.toList_append] at hchars
    cases hchars
  · rw [String.toList_append] at hc
    rcases List.mem_append.1 hc with hc | hc
    · rw [show "s_".toList = ['s', '_'] from rfl, List.mem_cons, List.mem_singleton] at hc
      rcases hc with rfl | rfl <;> decide
    · exact isNameChar_of_isSnakeChar (hrest c hc)

namespace Library

/-- The name of the next function is spelled like the others. -/
theorem spelled_freshName (l : Library) (title : String) : Spelled (l.freshName title) :=
  Text.exists_fresh_append "s_" "" (by decide) l.functionNames title

/-- A function that is added is the last entry of the table of its role. -/
theorem table_withFunction (registry : Texture.Registry) (blocks : List Block) (role' : Role) :
    (l.withFunction title role registry blocks).table role' =
      l.table role' ++ if role = role' then [l.freshName title] else [] := by
  unfold table withFunction
  rw [List.filter_append, List.map_append]
  by_cases h : role = role' <;> simp [h]

/-- Both tables together list the names of all functions. -/
theorem tables_perm (l : Library) :
    (l.table .surface ++ l.table .light).Perm l.functionNames := by
  have hlight : l.functions.filter (·.role = .light) =
      l.functions.filter fun f => !decide (f.role = .surface) := by
    refine List.filter_congr fun f _ => ?_
    cases f.role <;> rfl
  rw [table, table, hlight, ← List.map_append, functionNames]
  exact (List.filter_append_perm (fun f : Function => decide (f.role = .surface)) l.functions).map _

/-- Adding a graph comes to no more than one new entry, under a new name and with the index that is
the answer. -/
theorem Addition.tables {a : Except Error Nat × Library} (h : l.Addition title g role a) :
    (∃ e, a.1 = .error e ∧ a.2 = l) ∨
      a.1 = .ok (l.table role).length ∧
        a.2.functionNames = l.functionNames ++ [l.freshName title] ∧
        ∀ role', a.2.table role' =
          l.table role' ++ if role = role' then [l.freshName title] else [] := by
  obtain ⟨answer, l'⟩ := a
  cases answer with
  | error e => exact .inl ⟨e, rfl, h.of_error⟩
  | ok i =>
    obtain ⟨rfl, registry, blocks, rfl, -⟩ := h.of_ok
    refine .inr ⟨rfl, ?_, table_withFunction registry blocks⟩
    exact List.map_append

/-- The names of the functions are spelled alike, and no two functions share one. -/
theorem after_names (requests : List Request) :
    (after requests).functionNames.Nodup ∧
      ∀ name ∈ (after requests).functionNames, Spelled name := by
  have hempty : empty.functionNames.Nodup ∧ ∀ name ∈ empty.functionNames, Spelled name :=
    ⟨List.nodup_nil, List.forall_mem_nil _⟩
  refine (addAll_induction (P := fun l => l.registry.WellFormed ∧ l.functionNames.Nodup ∧
    ∀ name ∈ l.functionNames, Spelled name) ⟨.empty, hempty⟩ ?_ requests).2
  rintro l title g role ⟨hwf, hnodup, hspelled⟩
  have hadd := add_addition hwf title g role
  refine ⟨hadd.wellFormed hwf, ?_⟩
  rcases hadd.tables with ⟨e, -, hsame⟩ | ⟨-, hnames, -⟩
  · rw [hsame]
    exact ⟨hnodup, hspelled⟩
  · rw [hnames]
    have hfresh : l.freshName title ∉ l.functionNames := Text.fresh_notMem _ _ _
    refine ⟨List.nodup_append.2 ⟨hnodup, List.nodup_singleton _, ?_⟩, fun name hname => ?_⟩
    · rintro name hname fresh hmem rfl
      exact hfresh (List.mem_singleton.1 hmem ▸ hname)
    · rcases List.mem_append.1 hname with hname | hname
      · exact hspelled name hname
      · exact List.mem_singleton.1 hname ▸ spelled_freshName l title

/-- One more request. -/
theorem after_concat (before : List Request) (r : Request) :
    after (before ++ [r]) = ((after before).add r.title r.graph r.role).2 :=
  after_append before [r]

/-- A table only grows at its end. -/
theorem table_prefix (requests later : List Request) (role : Role) :
    (after requests).table role <+: (after (requests ++ later)).table role := by
  rw [after_append]
  refine (addAll_induction (P := fun l => l.registry.WellFormed ∧
    (after requests).table role <+: l.table role) ⟨after_wellFormed requests, List.prefix_rfl⟩ ?_
    later).2
  rintro l title g role' ⟨hwf, hprefix⟩
  have hadd := add_addition hwf title g role'
  refine ⟨hadd.wellFormed hwf, ?_⟩
  rcases hadd.tables with ⟨e, -, hsame⟩ | ⟨-, -, htable⟩
  · rw [hsame]
    exact hprefix
  · rw [htable role]
    exact hprefix.trans (List.prefix_append _ _)

/-- The answers to the requests for a role that were not refused. -/
def accepted (role : Role) (requests : List Request) : List Nat :=
  (requests.zip (empty.addAll requests).1).filterMap fun (r, answer) =>
    if r.role = role then answer.toOption else none

/-- There is an answer to every request. -/
theorem length_addAll (l : Library) (requests : List Request) :
    (l.addAll requests).1.length = requests.length := by
  induction requests generalizing l with
  | nil => rfl
  | cons r rest ih => rw [addAll_cons, List.length_cons, List.length_cons, ih]

/-- The answer to one more request. -/
theorem accepted_concat (role : Role) (before : List Request) (r : Request) :
    accepted role (before ++ [r]) = accepted role before ++
      (if r.role = role then ((after before).add r.title r.graph r.role).1.toOption
        else none).toList := by
  have hanswers : (empty.addAll (before ++ [r])).1 =
      (empty.addAll before).1 ++ [((after before).add r.title r.graph r.role).1] := by
    rw [addAll_append]
    rfl
  have hlength : before.length = (empty.addAll before).1.length := (length_addAll _ _).symm
  rw [accepted, hanswers, List.zip_append hlength, List.filterMap_append]
  congr 1

/-- The answers for a role count its table. -/
theorem accepted_eq_range (role : Role) (requests : List Request) :
    accepted role requests = List.range ((after requests).table role).length := by
  induction requests using List.reverseRecOn with
  | nil => rfl
  | append_singleton before r ih =>
    rw [accepted_concat, ih, after_concat]
    rcases (add_addition (after_wellFormed before) r.title r.graph r.role).tables with
      ⟨e, hanswer, hsame⟩ | ⟨hanswer, -, htable⟩
    · rw [hanswer, hsame]
      simp [Except.toOption]
    · rw [hanswer, htable role]
      by_cases hrole : r.role = role
      · subst hrole
        simp [Except.toOption, List.range_succ]
      · simp [hrole]

/-- An entry is where its answer says, from then on. -/
theorem getElem?_table_of_ok {before later : List Request} {r : Request} {i : Nat}
    (h : ((after before).add r.title r.graph r.role).1 = .ok i) :
    ((after (before ++ r :: later)).table r.role)[i]? =
      some ((after before).freshName r.title) := by
  rcases (add_addition (after_wellFormed before) r.title r.graph r.role).tables with
    ⟨e, hanswer, -⟩ | ⟨hanswer, -, htable⟩
  · rw [h] at hanswer
    cases hanswer
  · rw [h] at hanswer
    obtain rfl : i = ((after before).table r.role).length := Except.ok.inj hanswer
    have hentry : ((after (before ++ [r])).table r.role)[((after before).table r.role).length]? =
        some ((after before).freshName r.title) := by
      rw [after_concat, htable, if_pos rfl, List.getElem?_concat_length]
    obtain ⟨rest, hrest⟩ := table_prefix (before ++ [r]) later r.role
    rw [List.append_assoc, List.singleton_append] at hrest
    rw [← hrest, List.getElem?_append_left (List.getElem?_eq_some_iff.1 hentry).1, hentry]

/-- The body defines the functions of a library and no others. -/
theorem definedFunctions_body {requests : List Request}
    (h : ∀ r ∈ requests, '\n' ∉ r.title.toList) :
    definedFunctions (after requests).body = (after requests).functionNames := by
  refine definedFunctions_join (fun f hf => ?_) (fun f hf => ?_) (after_braceless requests)
  · obtain ⟨before, r, later, rfl, hfunctions⟩ := exists_request requests hf
    obtain ⟨-, htitle, -⟩ := bound_of_functions_eq hfunctions
    rw [htitle]
    exact h r (by simp)
  · exact ((after_names requests).2 f.name (List.mem_map_of_mem hf)).isName

/-! ## Main result -/

/-- The answers, the tables, the body and the dispatchers of a library agree. -/
structure Tabulated (requests : List Request) : Prop where
  /-- The answers for a role, but for refusals, count from zero. -/
  numbered : ∀ role, accepted role requests = List.range ((after requests).table role).length
  /-- No two entries of the tables share a name. -/
  distinct : ((after requests).table .surface ++ (after requests).table .light).Nodup
  spelled : ∀ role, ∀ name ∈ (after requests).table role, Spelled name
  /-- The body defines the entries of the tables, each once, and nothing else. -/
  defined : (definedFunctions (after requests).body).Perm
    ((after requests).table .surface ++ (after requests).table .light)
  /-- The source has a dispatcher for each table. -/
  dispatched : ∀ static stamp formats, ∃ before later,
    (after requests).source static stamp formats =
      before ++ dispatcher "shade_surface" "material" ((after requests).table .surface) ++
        dispatcher "shade_light" "shader" ((after requests).table .light) ++ later
  /-- The cases of the dispatchers are the entries by their index, and no others. -/
  surfaceCases : casesOf (dispatcher "shade_surface" "material" ((after requests).table .surface)) =
    ((after requests).table .surface).zipIdx.map Prod.swap
  lightCases : casesOf (dispatcher "shade_light" "shader" ((after requests).table .light)) =
    ((after requests).table .light).zipIdx.map Prod.swap
  /-- What a request was answered is where its function is found. -/
  returned : ∀ before r later i, requests = before ++ r :: later →
    ((after before).add r.title r.graph r.role).1 = .ok i →
      ((after requests).table r.role)[i]? = some ((after before).freshName r.title)
  /-- Later requests leave the entries where they are. -/
  kept : ∀ later role, (after requests).table role <+: (after (requests ++ later)).table role

end Library

end Candela.Shader
