import Candela.Proofs.Shader.Arguments
import Candela.Proofs.Shader.Blocks
import Candela.Proofs.Text.Words

/-!
# What comments hold

Names of nodes, paths of images and types of skies are written into comments, and titles of
materials into the headings of their functions. `codeLines` are the lines of a text that are no
comments. In the text of a function these are the lines of its code without any comments
(`Function.codeLines_text`), and the code of a node is a function of its variable, of the variables
it reads and of its slot, to which the names do not matter (`CodeOf.code_eq`). A heading is one
comment only up to the first line feed of the title: what comes after it is code
(`Function.codeLines_text_of_newline`).
-/

namespace Candela.Shader

open Candela.Graph (Node Input Kernel)

/-! ## Lines of code -/

/-- Whether a line begins with a comment mark, after any spaces. -/
def isComment (line : String) : Bool := ['/', '/'].isPrefixOf (line.toList.dropWhile (· == ' '))

/-- The lines of a text that are no comments. -/
def codeLines (text : String) : List String := (Text.lines text).filter fun line => !isComment line

/-- A comment stays one without a carriage return at its end. -/
theorem isComment_dropReturn {line : String} (h : isComment line = true) :
    isComment (String.ofList (Text.dropReturn line.toList)) = true := by
  unfold Text.dropReturn
  split
  · next hlast =>
    obtain ⟨init, hinit⟩ : ∃ init, line.toList = init ++ ['\r'] :=
      List.getLast?_eq_some_iff.1 hlast
    unfold isComment at h ⊢
    rw [hinit, List.dropWhile_append] at h
    rw [hinit, List.dropLast_concat, String.toList_ofList]
    match init.dropWhile (· == ' '), h with
    | [], h => exact absurd h (by decide)
    | [c], h => simp [List.isPrefixOf] at h
    | c :: d :: rest, h => simpa [List.isPrefixOf] using h
  · rwa [String.ofList_toList]

/-- The lines of code of a text that ends with a line feed do not depend on what comes after it. -/
theorem codeLines_append_newline (a b : String) :
    codeLines (a ++ "\n" ++ b) = codeLines (a ++ "\n") ++ codeLines b := by
  rw [codeLines, Text.lines_append_newline, List.filter_append]
  rfl

/-- A comment that is ended is no line of code. -/
theorem codeLines_comment {line : String} (hline : '\n' ∉ line.toList)
    (hcomment : isComment line = true) (b : String) : codeLines (line ++ "\n" ++ b) = codeLines b := by
  rw [codeLines, Text.lines_line hline, List.filter_cons_of_neg]
  · rfl
  · simp [isComment_dropReturn hcomment]

/-- A text after a comment mark is a comment. -/
theorem isComment_append {mark : String} (hmark : mark = "// " ∨ mark = "    // ") (text : String) :
    isComment (mark ++ text) = true := by
  unfold isComment
  rw [String.toList_append]
  rcases hmark with rfl | rfl <;> rfl

/-- The comments of an invocation are no lines of code. -/
theorem codeLines_commentText (text b : String) :
    codeLines (Invocation.commentText text ++ b) = codeLines b := by
  unfold Invocation.commentText
  have hlines : ∀ line ∈ Text.lines text, '\n' ∉ line.toList :=
    fun line hline => Text.notMem_of_mem_lines hline
  generalize Text.lines text = lines at hlines
  induction lines with
  | nil => simp
  | cons line rest ih =>
    have hline : '\n' ∉ ("    // " ++ line).toList := by
      rw [String.toList_append, List.mem_append]
      exact not_or.2 ⟨by decide, hlines line List.mem_cons_self⟩
    rw [List.map_cons, String.join_cons, String.append_assoc,
      codeLines_comment hline (isComment_append (.inr rfl) line)]
    exact ih fun l hl => hlines l (List.mem_cons_of_mem _ hl)

/-- Any number of comments are no lines of code. -/
theorem codeLines_comments (comments : List String) (b : String) :
    codeLines (String.join (comments.map Invocation.commentText) ++ b) = codeLines b := by
  induction comments with
  | nil => simp
  | cons text rest ih =>
    rw [List.map_cons, String.join_cons, String.append_assoc, codeLines_commentText, ih]

/-! ## Code without comments -/

variable {ε : Type}

/-- An invocation without its comments. -/
def Invocation.silent (i : Invocation ε) : Invocation ε := { i with comments := [] }

/-- The code of a node without its comments. -/
def Block.code (b : Block) : String :=
  b.invocation.silent.render Expression.text b.identifier

/-- The code of a function without its heading and without comments. -/
def Function.code (f : Function) : String :=
  "fn " ++ f.name ++ "(shading: ptr<function, ShadingContext>) \x7b" ++
    String.join (f.blocks.map Block.code) ++ "\x7d\n\n"

/-- Comments stand at the beginning of a line, and nothing after them depends on them: it is some
more lines. -/
theorem Invocation.exists_render_eq (expression : ε → String) (identifier : String)
    (i : Invocation ε) :
    ∃ rest, ∀ comments : List String,
      Invocation.render expression identifier { i with comments := comments } =
        "\n" ++ (String.join (comments.map commentText) ++ (rest ++ "\n")) := by
  have hend : ");\n" = ");" ++ "\n" := rfl
  refine ⟨"    var " ++ identifier ++ ": " ++ i.signature.name ++ ";\n" ++
    String.join (i.assignments.entries.map fun e =>
      assignmentText identifier e.1 (expression e.2)) ++
    "    " ++ i.signature.name ++ "_compute(" ++
    ", ".intercalate (("&" ++ identifier) :: i.arguments.map (Argument.text i.signature.name) ++
      ["shading"]) ++ ");", fun comments => ?_⟩
  simp only [render, hend, String.append_assoc]

/-- A block is an empty line, its comments, and the lines of its code. -/
theorem Block.exists_text_eq (b : Block) :
    ∃ rest, b.text = "\n" ++ (String.join (b.invocation.comments.map Invocation.commentText) ++
        (rest ++ "\n")) ∧ b.code = "\n" ++ (rest ++ "\n") := by
  obtain ⟨rest, hrest⟩ := b.invocation.exists_render_eq Expression.text b.identifier
  refine ⟨rest, ?_, ?_⟩
  · rw [Block.text, ← hrest b.invocation.comments]
  · rw [Block.code, Invocation.silent, hrest, List.map_nil, String.join_nil, String.empty_append]

/-- The blocks of a function are, but for comments, their code. -/
theorem codeLines_blocks (blocks : List Block) (before after : String) :
    codeLines (before ++ (String.join (blocks.map Block.text) ++ after)) =
      codeLines (before ++ (String.join (blocks.map Block.code) ++ after)) := by
  induction blocks generalizing before with
  | nil => rw [List.map_nil, List.map_nil]
  | cons b blocks ih =>
    obtain ⟨rest, htext, hcode⟩ := b.exists_text_eq
    have hnext := ih (before ++ "\n" ++ (rest ++ "\n"))
    calc
      codeLines (before ++ (String.join ((b :: blocks).map Block.text) ++ after)) =
          codeLines (before ++ "\n" ++
            (String.join (b.invocation.comments.map Invocation.commentText) ++
              (rest ++ "\n" ++ (String.join (blocks.map Block.text) ++ after)))) := by
        rw [List.map_cons, String.join_cons, htext]
        simp only [String.append_assoc]
      _ = codeLines (before ++ "\n" ++
            (rest ++ "\n" ++ (String.join (blocks.map Block.text) ++ after))) := by
        rw [codeLines_append_newline, codeLines_comments, ← codeLines_append_newline]
      _ = codeLines (before ++ (String.join ((b :: blocks).map Block.code) ++ after)) := by
        rw [List.map_cons, String.join_cons, hcode]
        simpa only [String.append_assoc] using hnext

/-- The text of a function below its heading is, but for comments, its code. -/
theorem Function.exists_text_eq (f : Function) :
    ∃ rest, f.text = "// " ++ f.role.name ++ ": " ++ f.title ++ "\n" ++ rest ∧
      codeLines rest = codeLines f.code := by
  refine ⟨"fn " ++ f.name ++ "(shading: ptr<function, ShadingContext>) \x7b" ++
    (String.join (f.blocks.map Block.text) ++ "\x7d\n\n"), ?_, ?_⟩
  · have hfn : "\nfn " = "\n" ++ "fn " := rfl
    rw [Function.text, hfn]
    simp only [String.append_assoc]
  · rw [codeLines_blocks, Function.code, ← String.append_assoc]

/-- A heading up to some part of its title without a line feed is a comment. -/
theorem codeLines_heading {part : String} (hpart : '\n' ∉ part.toList) (role : Role) (b : String) :
    codeLines ("// " ++ role.name ++ ": " ++ part ++ "\n" ++ b) = codeLines b := by
  have hcomment : isComment ("// " ++ role.name ++ ": " ++ part) = true := by
    rw [String.append_assoc, String.append_assoc]
    exact isComment_append (.inl rfl) _
  refine codeLines_comment ?_ hcomment b
  simp only [String.toList_append, List.mem_append, not_or]
  exact ⟨⟨⟨by decide, by cases role <;> decide⟩, by decide⟩, hpart⟩

/-- If its title has no line feed, the lines of code of a function are those of its code. -/
theorem Function.codeLines_text {f : Function} (h : '\n' ∉ f.title.toList) :
    codeLines f.text = codeLines f.code := by
  obtain ⟨rest, htext, hrest⟩ := f.exists_text_eq
  rw [htext, codeLines_heading h, hrest]

/-- What comes after the first line feed of its title is code of a function. -/
theorem Function.codeLines_text_of_newline {f : Function} {first leak : String}
    (htitle : f.title = first ++ "\n" ++ leak) (hfirst : '\n' ∉ first.toList) :
    codeLines f.text = codeLines (leak ++ "\n") ++ codeLines f.code := by
  obtain ⟨rest, htext, hrest⟩ := f.exists_text_eq
  have hsplit : "// " ++ f.role.name ++ ": " ++ (first ++ "\n" ++ leak) ++ "\n" ++ rest =
      "// " ++ f.role.name ++ ": " ++ first ++ "\n" ++ (leak ++ "\n" ++ rest) := by
    simp only [String.append_assoc]
  rw [htext, htitle, hsplit, codeLines_heading hfirst, codeLines_append_newline, hrest]

/-! ## Names -/

namespace Invocation

@[simp] theorem silent_comment (i : Invocation ε) (text : String) :
    (i.comment text).silent = i.silent := rfl

@[simp] theorem silent_argument (i : Invocation ε) (a : Argument) :
    (i.argument a).silent = i.silent.argument a := rfl

@[simp] theorem silent_assign (i : Invocation ε) (field : String) (e : ε) :
    (i.assign field e).silent = i.silent.assign field e := rfl

@[simp] theorem silent_choose (i : Invocation ε) (group requested : String) :
    (i.choose group requested).silent = i.silent.choose group requested := by
  have hsignature : i.silent.signature = i.signature := rfl
  rw [choose, choose, choose?, choose?, hsignature]
  cases i.signature.choice? group <;> rfl

@[simp] theorem silent_assignAll (i : Invocation ε) (l : List (String × ε)) :
    (i.assignAll l).silent = i.silent.assignAll l := by
  induction l generalizing i with
  | nil => rfl
  | cons e rest ih => exact ih (i.assign e.1 e.2)

end Invocation

@[simp] theorem silent_assignDefaults (defaults : List (String × Context))
    (i : Invocation Expression) :
    (assignDefaults defaults i).silent = assignDefaults defaults i.silent := by
  induction defaults generalizing i with
  | nil => rfl
  | cons first rest ih =>
    have hassigned : i.silent.assignments = i.assignments := rfl
    rw [assignDefaults_cons, assignDefaults_cons, ih, hassigned]
    split <;> rfl

/-- Node types that only differ in the path of an image, or in what a sky of one model is called. -/
inductive SameButNames : Kernel → Kernel → Prop where
  | refl (k : Kernel) : SameButNames k k
  | image (p : Graph.Parameters.TexImage) (path : String) :
      SameButNames (.texImage p) (.texImage { p with filepath := path })
  | environment (p : Graph.Parameters.TexEnvironment) (path : String) :
      SameButNames (.texEnvironment p) (.texEnvironment { p with filepath := path })
  | sky {p q : Graph.Parameters.TexSky} (h : skyOf p = skyOf q)
      (himplementation : (Kernel.texSky p).implementation? = (Kernel.texSky q).implementation?) :
      SameButNames (.texSky p) (.texSky q)

/-- Paths of images and types of skies are only written into comments. -/
theorem SameButNames.silent_invocationOf {k k' : Kernel} (h : SameButNames k k')
    (signature : Signature) (slot : Nat) :
    (invocationOf k signature slot).silent = (invocationOf k' signature slot).silent := by
  cases h with
  | refl => rfl
  | image => simp [invocationOf]
  | environment => simp [invocationOf]
  | sky h => simp [invocationOf, h]

/-- A signature does not depend on names. -/
theorem SameButNames.signature?_eq {k k' : Kernel} (h : SameButNames k k') :
    k.signature? = k'.signature? := by
  cases h with
  | refl => rfl
  | image => rfl
  | environment => rfl
  | sky _ himplementation => rw [Kernel.signature?, himplementation, ← Kernel.signature?]

/-- Graphs that only differ in paths of images and in what skies are called. -/
def SameButTexts (g g' : Graph) : Prop :=
  ∀ name, Option.Rel (fun node node' => SameButNames node.kernel node'.kernel ∧
    node.inputs = node'.inputs) (g.get? name) (g'.get? name)

/-- What a link reads does not depend on such texts. -/
theorem SameButTexts.sourceSocket?_eq {g g' : Graph} (h : SameButTexts g g') (link : Graph.Link) :
    sourceSocket? g link = sourceSocket? g' link := by
  have hrel := h link.node
  rw [sourceSocket?, sourceSocket?]
  generalize g.get? link.node = found at hrel ⊢
  generalize g'.get? link.node = found' at hrel ⊢
  cases hrel with
  | none => rfl
  | some hnode => simp only [Option.bind_eq_bind, Option.bind_some, hnode.1.signature?_eq]

/-- What an input assigns does not depend on such texts. -/
theorem SameButTexts.inputAssignment?_eq {g g' : Graph} (h : SameButTexts g g')
    (naming : String → String) (signature : Signature) :
    inputAssignment? g naming signature = inputAssignment? g' naming signature := by
  funext input
  simp only [inputAssignment?, readExpression, h.sourceSocket?_eq]

/-- The code of a node, when its variable and those of the nodes it reads from are known. -/
def nodeCode (g : Graph) (naming : String → String) (identifier : String) (node : Node)
    (signature : Signature) (slot : Nat) : String :=
  (assignDefaults (contextDefaults signature.name)
    ((invocationOf node.kernel signature slot).silent.assignAll
      (node.inputs.entries.filterMap (inputAssignment? g naming signature)))).render
        Expression.text identifier

/-- The code of a block does not depend on names but through variables and slots. -/
theorem CodeOf.code_eq {g g' : Graph} {q : Progress} {b : Block} {node : Node}
    {signature : Signature} {slot : Nat} (h : CodeOf g q b node signature slot)
    (hg : SameButTexts g g') :
    ∃ node', g'.get? b.node = some node' ∧ node'.kernel.signature? = some signature ∧
      b.code = nodeCode g' q.naming b.identifier node' signature slot := by
  have hrel := hg b.node
  rw [h.get] at hrel
  generalize hget : g'.get? b.node = found at hrel
  cases hrel with
  | @some _ node' hnode =>
    refine ⟨node', rfl, hnode.1.signature?_eq ▸ h.kernel, ?_⟩
    rw [Block.code, h.invocation, nodeCode, nodeInvocation, inputInvocation, silent_assignDefaults,
      Invocation.silent_assignAll, Invocation.silent_comment, hnode.1.silent_invocationOf, hnode.2,
      hg.inputAssignment?_eq]

/-! ## Main result -/

namespace Library

/-- The text that an added graph appends has, if there is no line feed in the title, no lines but
comments and those of the function's code; after a line feed, the rest of the title is among them.
The code is that of the function's name and of its nodes, and the code of a node is the same in any
graph that only differs in paths of images and in what skies are called: it depends on names only
through its variable, the variables it reads and its slot. -/
theorem add_appends_comments (requests : List Request) (title : String) (g : Graph) (role : Role)
    (i : Nat) (h : ((after requests).add title g role).1 = .ok i) :
    ∃ f : Function, f.name = (after requests).freshName title ∧
      ((after requests).add title g role).2.body = (after requests).body ++ f.text ∧
      ('\n' ∉ title.toList → codeLines f.text = codeLines f.code) ∧
      (∀ first leak, title = first ++ "\n" ++ leak → '\n' ∉ first.toList →
        codeLines f.text = codeLines (leak ++ "\n") ++ codeLines f.code) ∧
      ∃ naming : String → String, ∀ b ∈ f.blocks, naming b.node = b.identifier ∧
        ∃ signature slot, ∀ g', SameButTexts g g' → ∃ node, g'.get? b.node = some node ∧
          node.kernel.signature? = some signature ∧
          b.code = nodeCode g' naming b.identifier node signature slot := by
  have haddition := add_addition (after_wellFormed requests) title g role
  cases hout : (after requests).add title g role with
  | mk answer l' =>
    rw [hout] at h haddition
    cases h
    obtain ⟨-, registry, blocks, rfl, hblocks⟩ := haddition.of_ok
    let f : Function := ⟨role, title, (after requests).freshName title, blocks⟩
    refine ⟨f, rfl, body_withFunction _ _ _ _ _, fun htitle => f.codeLines_text htitle,
      fun first leak htitle hfirst => f.codeLines_text_of_newline htitle hfirst, ?_⟩
    rcases hblocks with ⟨-, -, rfl⟩ | ⟨out, q, -, -, rfl, hvisited⟩
    · exact ⟨id, nofun⟩
    · refine ⟨q.naming, fun b hb => ?_⟩
      obtain ⟨node, signature, slot, hcode⟩ := hvisited.sound.code b hb
      refine ⟨?_, signature, slot, fun g' hg => hcode.code_eq hg⟩
      rw [Progress.naming, hcode.identifier, Option.getD_some]

/-- The text of a material whose title has no line feed. -/
theorem comments_braid :
    ((after []).add "Braid" braid .surface).1 = .ok 0 ∧
      ∃ f : Function, ((after []).add "Braid" braid .surface).2.body = f.text ∧
        codeLines f.text = codeLines f.code := by
  obtain ⟨f, -, hbody, hlines, -⟩ := add_appends_comments [] "Braid" braid .surface 0 add_braid
  exact ⟨add_braid, f, hbody.trans (String.empty_append), hlines (by decide)⟩

/-- Two titles that give a function the same name, one with a line feed and one without: the rest
of the first one is a line of code. -/
theorem code_in_title :
    (after []).freshName "Glass\nfn s_other() \x7b\x7d" =
        (after []).freshName "Glass fn s_other() \x7b\x7d" ∧
      ((after []).add "Glass\nfn s_other() \x7b\x7d" ⟨.empty⟩ .surface).1 = .ok 0 ∧
      codeLines ((after []).add "Glass\nfn s_other() \x7b\x7d" ⟨.empty⟩ .surface).2.body =
        "fn s_other() \x7b\x7d" ::
          codeLines ((after []).add "Glass fn s_other() \x7b\x7d" ⟨.empty⟩ .surface).2.body := by
  decide +kernel

end Library

end Candela.Shader
