import Candela.Keyed
import Candela.Shader.Signature
import Candela.Text.Names
import Candela.Text.Words

/-!
# Kernel invocations

The code of one node: a variable of the kernel's struct, assignments to its fields, and a call of
the compute function with the arguments that are known when the code is generated. Comments may hold
any text: every line of one is put behind a comment mark.
-/

namespace Candela.Shader

/-- An argument of a compute function. -/
inductive Argument where
  /-- A texture slot. -/
  | slot (n : Nat)
  /-- A whole number. -/
  | int (n : Int)
  /-- A truth value. -/
  | bool (b : Bool)
  /-- A value of an option. -/
  | choice (group value : String)
  /-- The constant that holds the pixel format of a texture slot. -/
  | pixelFormat (slot : Nat)
  /-- A constant by its name. -/
  | constant (name : String)
  deriving DecidableEq

/-- The constant of a value of an option. -/
def choiceConstant (kernel group value : String) : String :=
  "k_" ++ kernel ++ "_" ++ group ++ "_" ++ Text.sanitize value

/-- The constant that holds the pixel format of a texture slot. -/
def pixelFormatConstant (slot : Nat) : String := "TEX" ++ toString slot ++ "_PIXEL_FORMAT"

/-- The text of an argument of a kernel. -/
def Argument.text (kernel : String) : Argument → String
  | slot n => toString n ++ "u"
  | int n => toString n ++ "i"
  | bool b => if b then "true" else "false"
  | choice group value => choiceConstant kernel group value
  | pixelFormat n => pixelFormatConstant n
  | constant name => name

/-- The invocation of a kernel, with expressions of some type. -/
structure Invocation (ε : Type) where
  /-- The kernel. -/
  signature : Signature
  /-- The arguments of the call, in order. -/
  arguments : List Argument
  /-- The comments above the code. -/
  comments : List String
  /-- The expression of every field that is assigned. -/
  assignments : Keyed ε

namespace Invocation

variable {ε : Type}

/-- An invocation without arguments, comments and assignments. -/
def ofSignature (signature : Signature) : Invocation ε := ⟨signature, [], [], .empty⟩

/-- Appends an argument. -/
def argument (i : Invocation ε) (a : Argument) : Invocation ε :=
  { i with arguments := i.arguments ++ [a] }

/-- Appends the value of an option that the kernel has. -/
def choose? (i : Invocation ε) (group requested : String) : Option (Invocation ε) :=
  (i.signature.choice? group).map fun c => i.argument (.choice group (c.select requested))

/-- Appends the value of an option; a kernel without the option takes no argument for it. -/
def choose (i : Invocation ε) (group requested : String) : Invocation ε :=
  (i.choose? group requested).getD i

/-- Appends a comment. -/
def comment (i : Invocation ε) (text : String) : Invocation ε :=
  { i with comments := i.comments ++ [text] }

/-- Assigns an expression to a field, in place of an earlier one. -/
def assign (i : Invocation ε) (field : String) (e : ε) : Invocation ε :=
  { i with assignments := i.assignments.insert field e }

/-- A comment's lines in generated code. -/
def commentText (text : String) : String :=
  String.join ((Text.lines text).map fun line => "    // " ++ line ++ "\n")

/-- The assignment of a field in generated code. -/
def assignmentText (identifier field expression : String) : String :=
  "    " ++ identifier ++ "." ++ field ++ " = " ++ expression ++ ";\n"

/-- The code of an invocation whose variable has the given name. -/
def render (expression : ε → String) (identifier : String) (i : Invocation ε) : String :=
  let kernel := i.signature.name
  let arguments := ("&" ++ identifier) :: i.arguments.map (Argument.text kernel) ++ ["shading"]
  "\n" ++ String.join (i.comments.map commentText) ++
    "    var " ++ identifier ++ ": " ++ kernel ++ ";\n" ++
    String.join (i.assignments.entries.map fun (field, e) =>
      assignmentText identifier field (expression e)) ++
    "    " ++ kernel ++ "_compute(" ++ ", ".intercalate arguments ++ ");\n"

end Invocation

end Candela.Shader
