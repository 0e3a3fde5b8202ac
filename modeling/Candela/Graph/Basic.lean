import Candela.Graph.Kernel
import Candela.Graph.Socket

/-!
# Node graphs

A graph of shading nodes: every node has a type and inputs by name, and nodes are known by their
names. Inputs and nodes are walked in the order of their names.
-/

namespace Candela

/-- A node: its type and its inputs. -/
structure Graph.Node where
  /-- The type, with its parameters. -/
  kernel : Graph.Kernel
  /-- The inputs, by name. -/
  inputs : Keyed Graph.Input

/-- A graph: its nodes by name. -/
structure Graph where
  /-- The nodes. -/
  nodes : Keyed Graph.Node

namespace Graph

/-- A node's parameters are looked at only as its type demands, but must be a value. -/
def Node.ofJson? (j : Json) : Option Node := do
  let f ← j.fields? ["type", "inputs", "parameters"]
  let tag ← f.required "type" Json.toString?
  let inputs ← f.defaulted "inputs" (Json.toKeyed? Input.ofJson?) .empty
  let parameters ← f.defaulted "parameters" Json.settled? .null
  return ⟨← Kernel.ofTag? tag parameters, inputs⟩

/-- The graph that a document is. -/
def ofJson? (j : Json) : Option Graph := (j.toKeyed? Node.ofJson?).map Graph.mk

/-- The node of a name. -/
def get? (g : Graph) (name : String) : Option Node := g.nodes.get? name

/-- How many nodes there are. -/
def size (g : Graph) : Nat := g.nodes.size

/-- The nodes whose type has some property, in the order of their names. -/
def namesWhere (g : Graph) (p : Kernel → Bool) : List String :=
  (g.nodes.entries.filter fun e => p e.2.kernel).map (·.1)

/-- The outputs of the graph. -/
def outputs (g : Graph) : List String := g.namesWhere Kernel.isOutput

end Graph

end Candela
