import Candela.Graph.Basic
import Candela.Shader.Rule
import Candela.Text.Names

/-!
# Compiling a graph

A graph becomes a list of blocks, one for each node that its output reaches, each after those it
reads from. The walk is depth first along the first link of every input that the kernel uses. Nodes
are marked on the way in and on the way out: meeting one that is marked only on the way in is a
cycle. A node has at most as many nodes above it as the graph has, which bounds the depth of the
walk.
-/

namespace Candela.Shader

open Candela.Graph (Node Input Link Literal)

/-- The code of one node. -/
structure Block where
  /-- The name of the node. -/
  node : String
  /-- The variable that holds the kernel's struct. -/
  identifier : String
  /-- The kernel, its arguments and the assignments to its fields. -/
  invocation : Invocation Expression

/-- The text of a block. -/
def Block.text (b : Block) : String := b.invocation.render Expression.text b.identifier

/-- How far the walk has come with a node. -/
inductive Mark where
  /-- Its inputs are being walked. -/
  | pending
  /-- Its block has been written. -/
  | emitted
  deriving DecidableEq

/-- What a walk has done so far. -/
structure Progress where
  /-- The textures that have slots. -/
  registry : Texture.Registry
  /-- The nodes that have been met. -/
  marks : Keyed Mark
  /-- The variables that have been given to nodes. -/
  identifiers : Keyed String
  /-- The blocks that have been written, in order. -/
  blocks : List Block

/-- A step of a walk: what it has done is kept when it fails. -/
abbrev Walk := EStateM Error Progress

/-- Nothing has been done but the textures of earlier graphs have slots. -/
def Progress.start (registry : Texture.Registry) : Progress := ⟨registry, .empty, .empty, []⟩

/-- Marks a node. -/
def mark (name : String) (m : Mark) : Walk Unit :=
  modify fun p => { p with marks := p.marks.insert name m }

/-- The variable of a node, a fresh one when it is first asked for. -/
def identifierOf (name : String) : Walk String := do
  let p ← get
  match p.identifiers.get? name with
  | some identifier => return identifier
  | none =>
    let identifier := Text.fresh p.identifiers.values ("n_" ++ Text.snake name) "_"
    set { p with identifiers := p.identifiers.insert name identifier }
    return identifier

/-- The invocation of a node, its texture given a slot. -/
def invoked (k : Graph.Kernel) : Walk (Invocation Expression) := do
  let p ← get
  match invoke k p.registry with
  | .error e => throw e
  | .ok (i, registry) =>
    set { p with registry := registry }
    return i

/-- The output socket that a link names. -/
def sourceSocket? (g : Graph) (link : Link) : Option Socket := do
  let node ← g.get? link.node
  let signature ← node.kernel.signature?
  signature.output? link.property

/-- What is assigned to a field that is linked: the field of the linked node, converted, or the
value that stands for nothing if the link names no output. -/
def linkExpression (g : Graph) (link : Link) (target : FieldKind) : Walk Expression :=
  match sourceSocket? g link with
  | none => return .absent target
  | some socket => do
    let identifier ← identifierOf link.node
    return .convert socket.kind target (.field identifier socket.field)

/-- Puts an input of a node into its invocation. A link has to be compiled first and is read from
then; a literal counts only where neither a link nor the point that is shaded does. -/
def assignInput (emit : String → Walk Unit) (g : Graph) (node : String)
    (defaults : List (String × Context)) (i : Invocation Expression) (input : String × Input) :
    Walk (Invocation Expression) :=
  if 1 < input.2.links.length then throw (.multiInputDetected node input.1)
  else
    match i.signature.input? input.1, input.2.links.head? with
    | none, _ => return i
    | some socket, some link => do
      emit link.node
      return i.assign socket.field (← linkExpression g link socket.kind)
    | some socket, none =>
      if (defaults.lookup socket.field).isSome then return i
      else
        match input.2.value.bind (Expression.ofLiteral? · socket.kind) with
        | some e => return i.assign socket.field e
        | none => return i

/-- Assigns the vectors of the point that is shaded to the fields that are still free. -/
def assignDefaults (defaults : List (String × Context)) (i : Invocation Expression) :
    Invocation Expression :=
  defaults.foldl
    (fun i (field, c) => if i.assignments.contains field then i else i.assign field (.context c)) i

/-- Writes the blocks of a node and of everything it reads. The first argument bounds the depth. -/
def emitNode (g : Graph) : Nat → String → Walk Unit
  | 0, name => throw (.cycleDetected name)
  | depth + 1, name => do
    match (← get).marks.get? name with
    | some .emitted => return
    | some .pending => throw (.cycleDetected name)
    | none =>
      mark name .pending
      match g.get? name with
      | none => throw (.missingNode name)
      | some node =>
        let i := (← invoked node.kernel).comment name
        let defaults := contextDefaults i.signature.name
        let i ← node.inputs.entries.foldlM (assignInput (emitNode g depth) g name defaults) i
        let i := assignDefaults defaults i
        let identifier ← identifierOf name
        modify fun p => { p with blocks := p.blocks ++ [⟨name, identifier, i⟩] }
        mark name .emitted

/-- What a graph is compiled for. -/
inductive Role where
  /-- The surface of a material. -/
  | surface
  /-- A light or the world. -/
  | light
  deriving DecidableEq

namespace Role

/-- The name of a role. -/
def name : Role → String
  | surface => "Surface"
  | light => "Light"

/-- Whether an output of some type is an output for a role. -/
def accepts : Role → Graph.Kernel → Bool
  | surface, .outputMaterial => true
  | light, .outputWorld => true
  | light, .outputLight => true
  | _, _ => false

end Role

/-- The output that is compiled: the first one for the role. -/
def chosenOutput? (g : Graph) (role : Role) : Option String := (g.namesWhere role.accepts).head?

/-- Compiles a graph; one without an output for the role has no blocks. -/
def emitGraph (g : Graph) (role : Role) : Walk Unit :=
  match chosenOutput? g role with
  | none => return
  | some name => emitNode g (g.size + 1) name

end Candela.Shader
