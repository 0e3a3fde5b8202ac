import Candela.Proofs.Shader.Assignments

/-!
# Arguments of a node's call

Inputs of a node only contribute assignments: the arguments of its call are those of the rule of its
type (`arguments_nodeInvocation`). The only slot among them is the one that the texture of the node
has (`slot_of_mem_arguments`), and it is among them (`slot_mem_arguments`).
-/

namespace Candela.Shader

open Candela.Graph (Node Kernel)

variable {ε : Type} {g : Graph} {naming : String → String} {name : String} {node : Node}
  {signature : Signature} {slot : Nat} {a : Argument}

namespace Invocation

@[simp] theorem arguments_ofSignature (signature : Signature) :
    (ofSignature signature : Invocation ε).arguments = [] := rfl

@[simp] theorem arguments_assign (i : Invocation ε) (field : String) (e : ε) :
    (i.assign field e).arguments = i.arguments := rfl

@[simp] theorem arguments_comment (i : Invocation ε) (text : String) :
    (i.comment text).arguments = i.arguments := rfl

@[simp] theorem arguments_argument (i : Invocation ε) (a : Argument) :
    (i.argument a).arguments = i.arguments ++ [a] := rfl

@[simp] theorem arguments_assignAll (i : Invocation ε) (l : List (String × ε)) :
    (i.assignAll l).arguments = i.arguments := by
  induction l generalizing i with
  | nil => rfl
  | cons e rest ih => exact ih (i.assign e.1 e.2)

end Invocation

@[simp] theorem arguments_assignDefaults (defaults : List (String × Context))
    (i : Invocation Expression) : (assignDefaults defaults i).arguments = i.arguments := by
  induction defaults generalizing i with
  | nil => rfl
  | cons first rest ih =>
    rw [assignDefaults_cons, ih]
    split <;> rfl

/-- The arguments of a node's call are those of its type. -/
theorem arguments_nodeInvocation :
    (nodeInvocation g naming name node signature slot).arguments =
      (invocationOf node.kernel signature slot).arguments := by
  simp [nodeInvocation, inputInvocation]

/-! ## Slots -/

namespace Argument

/-- The slot that an argument names, as a number or by the constant with the format of its
texture. -/
def slot? : Argument → Option Nat
  | .slot n => some n
  | .pixelFormat n => some n
  | _ => none

/-- Whether an argument is a value of an option. -/
def isChoice : Argument → Bool
  | .choice _ _ => true
  | _ => false

end Argument

namespace Invocation

/-- The arguments of a call that are not values of options. -/
def plainArguments (i : Invocation ε) : List Argument := i.arguments.filter fun a => !a.isChoice

@[simp] theorem plainArguments_ofSignature :
    (ofSignature signature : Invocation ε).plainArguments = [] := rfl

@[simp] theorem plainArguments_comment (i : Invocation ε) (text : String) :
    (i.comment text).plainArguments = i.plainArguments := rfl

@[simp] theorem plainArguments_assign (i : Invocation ε) (field : String) (e : ε) :
    (i.assign field e).plainArguments = i.plainArguments := rfl

@[simp] theorem plainArguments_argument (i : Invocation ε) (a : Argument) :
    (i.argument a).plainArguments = i.plainArguments ++ if a.isChoice then [] else [a] := by
  cases h : a.isChoice <;> simp [plainArguments, h]

@[simp] theorem plainArguments_choose (i : Invocation ε) (group requested : String) :
    (i.choose group requested).plainArguments = i.plainArguments := by
  rw [choose, choose?]
  cases i.signature.choice? group with
  | none => rfl
  | some c => simp [Argument.isChoice]

/-- An argument that is no value of an option is a plain one. -/
theorem mem_plainArguments {i : Invocation ε} (ha : a ∈ i.arguments) (hchoice : a.isChoice = false) :
    a ∈ i.plainArguments :=
  List.mem_filter.2 ⟨ha, by simp [hchoice]⟩

end Invocation

/-- The arguments of a node's call that are not values of options. -/
def ruleArguments (slot : Nat) : Kernel → List Argument
  | .texImage _ | .texEnvironment _ => [.slot slot, .pixelFormat slot]
  | .texSky _ => [.slot slot]
  | .colorRamp p => [.int (rampStops p.elements).length]
  | .mixRgb p => [.bool p.useClamp]
  | .mix p => [.bool p.clampFactor, .bool p.clampResult]
  | .math p => [.bool p.useClamp]
  | .mapRange p => [.bool p.clamp]
  | _ => []

/-- The rule of a node type gives these arguments. -/
theorem plainArguments_invocationOf (k : Kernel) (signature : Signature) (slot : Nat) :
    (invocationOf k signature slot).plainArguments = ruleArguments slot k := by
  cases k <;> simp [invocationOf, ruleArguments, Argument.isChoice]

/-- The rule of a node type names no slot but that of the texture of the node. -/
theorem slot_of_mem_ruleArguments {k : Kernel} {n : Nat} (ha : a ∈ ruleArguments slot k)
    (hn : a.slot? = some n) : n = slot ∧ (textureOf? k).isSome := by
  unfold ruleArguments at ha
  split at ha
  case h_1 | h_2 =>
    rcases List.mem_pair.1 ha with rfl | rfl <;>
    · cases hn
      exact ⟨rfl, rfl⟩
  case h_3 =>
    rw [List.mem_singleton.1 ha] at hn
    cases hn
    exact ⟨rfl, rfl⟩
  case h_6 => rcases List.mem_pair.1 ha with rfl | rfl <;> cases hn
  case h_9 => cases ha
  all_goals
    rw [List.mem_singleton.1 ha] at hn
    cases hn

/-- A slot among the arguments is that of the texture of the node. -/
theorem slot_of_mem_arguments {k : Kernel} {n : Nat}
    (ha : a ∈ (invocationOf k signature slot).arguments) (hn : a.slot? = some n) :
    n = slot ∧ (textureOf? k).isSome := by
  have hchoice : a.isChoice = false := by
    cases a with
    | choice => cases hn
    | _ => rfl
  have hmem := Invocation.mem_plainArguments ha hchoice
  rw [plainArguments_invocationOf] at hmem
  exact slot_of_mem_ruleArguments hmem hn

/-- The texture of a node is named by its slot. -/
theorem slot_mem_arguments {k : Kernel} (h : (textureOf? k).isSome) :
    .slot slot ∈ (invocationOf k signature slot).arguments := by
  have hmem : Argument.slot slot ∈ (invocationOf k signature slot).plainArguments := by
    rw [plainArguments_invocationOf]
    cases k <;> simp [textureOf?, ruleArguments] at h ⊢
  exact (List.mem_filter.1 hmem).1

/-- No constant is spelled out. -/
theorem constant_notMem_arguments (k : Kernel) (constant : String) :
    .constant constant ∉ (invocationOf k signature slot).arguments := by
  intro hmem
  have hplain := Invocation.mem_plainArguments hmem rfl
  rw [plainArguments_invocationOf] at hplain
  cases k <;> simp [ruleArguments] at hplain

end Candela.Shader
