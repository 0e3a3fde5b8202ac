import Candela.Proofs.Shader.Reading

/-!
# The code of a node

What the compiler writes for a node depends on the order of its walk only through the variables that
other nodes have been given. `nodeInvocation` is that code as a function of the variables: the
invocation of the node's type, the assignments of its inputs one after another, and the vectors of
the point that is shaded where nothing is assigned. Only the variables of nodes that it reads from
matter (`nodeInvocation_congr`).
-/

namespace Candela.Shader

open Candela.Graph (Node Input Link Kernel)

variable {ε : Type} {g : Graph} {naming naming' : String → String} {name : String}

namespace Invocation

/-- Assigns expressions to fields, one after another. -/
def assignAll (i : Invocation ε) (l : List (String × ε)) : Invocation ε :=
  l.foldl (fun i e => i.assign e.1 e.2) i

@[simp] theorem signature_assign (i : Invocation ε) (field : String) (e : ε) :
    (i.assign field e).signature = i.signature := rfl

@[simp] theorem signature_comment (i : Invocation ε) (text : String) :
    (i.comment text).signature = i.signature := rfl

@[simp] theorem signature_argument (i : Invocation ε) (a : Argument) :
    (i.argument a).signature = i.signature := rfl

@[simp] theorem signature_choose (i : Invocation ε) (group requested : String) :
    (i.choose group requested).signature = i.signature := by
  rw [choose, choose?]
  cases i.signature.choice? group <;> rfl

@[simp] theorem assignAll_nil (i : Invocation ε) : i.assignAll [] = i := rfl

theorem assignAll_append (i : Invocation ε) (l l' : List (String × ε)) :
    i.assignAll (l ++ l') = (i.assignAll l).assignAll l' := List.foldl_append

@[simp] theorem signature_assignAll (i : Invocation ε) (l : List (String × ε)) :
    (i.assignAll l).signature = i.signature := by
  induction l generalizing i with
  | nil => rfl
  | cons e rest ih => exact ih (i.assign e.1 e.2)

end Invocation

/-- The invocation of a node type is that of the kernel it is asked for. -/
@[simp] theorem signature_invocationOf (k : Kernel) (signature : Signature) (slot : Nat) :
    (invocationOf k signature slot).signature = signature := by
  cases k <;> simp [invocationOf, Invocation.ofSignature]

/-- What is read through a link, when the variables of the nodes are known. -/
def readExpression (g : Graph) (naming : String → String) (link : Link) (target : FieldKind) :
    Expression :=
  match sourceSocket? g link with
  | none => .absent target
  | some socket => .convert socket.kind target (.field (naming link.node) socket.field)

/-- The field that an input assigns and what it assigns to it, if it assigns anything. -/
def inputAssignment? (g : Graph) (naming : String → String) (signature : Signature)
    (input : String × Input) : Option (String × Expression) :=
  match signature.input? input.1, input.2.links.head? with
  | none, _ => none
  | some socket, some link => some (socket.field, readExpression g naming link socket.kind)
  | some socket, none =>
    if ((contextDefaults signature.name).lookup socket.field).isSome then none
    else
      (input.2.value.bind (Expression.ofLiteral? · socket.kind)).map fun e => (socket.field, e)

/-- The invocation of a node before the vectors of the point that is shaded are put in: that of its
type, and what the given inputs assign. -/
def inputInvocation (g : Graph) (naming : String → String) (name : String) (k : Kernel)
    (signature : Signature) (slot : Nat) (inputs : List (String × Input)) : Invocation Expression :=
  ((invocationOf k signature slot).comment name).assignAll
    (inputs.filterMap (inputAssignment? g naming signature))

/-- The invocation of a node, when the variables of the nodes are known. -/
def nodeInvocation (g : Graph) (naming : String → String) (name : String) (node : Node)
    (signature : Signature) (slot : Nat) : Invocation Expression :=
  assignDefaults (contextDefaults signature.name)
    (inputInvocation g naming name node.kernel signature slot node.inputs.entries)

/-- What an input assigns depends on the variable of the node it is linked to. -/
theorem inputAssignment?_congr {signature : Signature} {input : String × Input}
    (h : ∀ link, (signature.input? input.1).isSome → input.2.links.head? = some link →
      naming link.node = naming' link.node) :
    inputAssignment? g naming signature input = inputAssignment? g naming' signature input := by
  unfold inputAssignment?
  split
  · rfl
  · next socket link hsocket hlink =>
    simp only [readExpression, h link (by simp [hsocket]) hlink]
  · rfl

/-- What some inputs assign depends on the variables of the nodes they are linked to. -/
theorem inputInvocation_congr {k : Kernel} {signature : Signature} {slot : Nat}
    {inputs : List (String × Input)}
    (h : ∀ input ∈ inputs, ∀ link, (signature.input? input.1).isSome →
      input.2.links.head? = some link → naming link.node = naming' link.node) :
    inputInvocation g naming name k signature slot inputs =
      inputInvocation g naming' name k signature slot inputs := by
  unfold inputInvocation
  rw [List.filterMap_congr fun input hinput => inputAssignment?_congr (h input hinput)]

/-- The code of a node depends on the variables of the nodes it reads from. -/
theorem nodeInvocation_congr {node : Node} {signature : Signature} {slot : Nat}
    (hget : g.get? name = some node) (hsignature : node.kernel.signature? = some signature)
    (h : ∀ source, g.Reads name source → naming source = naming' source) :
    nodeInvocation g naming name node signature slot =
      nodeInvocation g naming' name node signature slot := by
  unfold nodeInvocation
  rw [inputInvocation_congr fun input hinput link hused hlink =>
    h link.node ⟨node, signature, hget, hsignature, input, hinput, hused, link, hlink, rfl⟩]

end Candela.Shader
