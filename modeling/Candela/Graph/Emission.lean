import Candela.Graph.Basic

/-!
# Detecting light

Whether the surface of a material can radiate light: whether, following links backwards from an
output for materials or lights, one meets an emitter whose strength is not the literal zero. Links
to nodes that do not exist are ignored, and cycles do no harm.
-/

namespace Candela.Graph

/-- Whether an emitter is switched on: its strength is linked, or a literal other than zero, or left
out, which means one. -/
def Node.emits (n : Node) : Bool :=
  match n.inputs.get? "Strength" with
  | none => true
  | some strength =>
    strength.isLinked || match strength.value with
      | some v => !v.isZero
      | none => false

/-- Whether a node is an emitter that is switched on. -/
def Node.radiates (n : Node) : Bool := n.kernel.isEmitter && n.emits

/-- The nodes that a node's links name. -/
def Node.linkedNames (n : Node) : List String :=
  n.inputs.values.flatMap fun i => i.links.map (·.node)

/-- What there is to be done at all elements of a list together. -/
def total {α : Type} (work : α → Nat) : List α → Nat
  | [] => 0
  | x :: rest => work x + total work rest

/-- What there is to be done at a node: one step, and one for every link. -/
def Node.work (n : Node) : Nat := n.linkedNames.length + 1

/-- What is left to be done at the nodes that have not been visited. -/
def pending (g : Graph) (visited : List String) : Nat :=
  total (·.2.work) (g.nodes.entries.filter (·.1 ∉ visited))

/-- Leaving elements out leaves less to be done. -/
theorem total_filter_le {α : Type} (p : α → Bool) (work : α → Nat) (l : List α) :
    total work (l.filter p) ≤ total work l := by
  induction l with
  | nil => exact Nat.le_refl 0
  | cons x rest ih =>
    rw [List.filter_cons, total]
    split
    · rw [total]
      exact Nat.add_le_add_left ih _
    · exact Nat.le_add_left_of_le ih

/-- Leaving out an element that is there leaves less to be done by as much as there is to be done at
it. -/
theorem total_filter_add_le {α : Type} (p : α → Bool) (work : α → Nat) {l : List α} {x : α}
    (hx : x ∈ l) (hp : p x = false) : total work (l.filter p) + work x ≤ total work l := by
  induction l with
  | nil => cases hx
  | cons y rest ih =>
    rw [total]
    rcases List.mem_cons.1 hx with rfl | hx
    · rw [List.filter_cons_of_neg (by simp [hp]), Nat.add_comm]
      exact Nat.add_le_add_left (total_filter_le p work rest) _
    · rw [List.filter_cons]
      have hrest := ih hx
      split
      · rw [total]
        omega
      · omega

/-- The nodes without those of some names, and without one more. -/
theorem pending_cons (g : Graph) (visited : List String) (name : String) :
    g.pending (name :: visited) =
      total (·.2.work) ((g.nodes.entries.filter (·.1 ∉ visited)).filter (·.1 ≠ name)) := by
  rw [pending, List.filter_filter]
  refine congrArg (total _) (List.filter_congr fun e _ => ?_)
  by_cases he : e.1 = name <;> simp [he]

/-- Visiting a node is one step, and puts its links off. -/
theorem pending_lt {g : Graph} {visited : List String} {name : String} {node : Node}
    (hget : g.get? name = some node) (hnew : name ∉ visited) :
    g.pending (name :: visited) + node.linkedNames.length < g.pending visited := by
  have hmem : (name, node) ∈ g.nodes.entries.filter (·.1 ∉ visited) :=
    List.mem_filter.2 ⟨Keyed.mem_entries_of_get? hget, by simpa using hnew⟩
  have hle := total_filter_add_le (·.1 ≠ name) (·.2.work) hmem (by simp)
  rw [pending_cons, pending]
  exact hle

/-- Visiting a name leaves no more to be done. -/
theorem pending_cons_le (g : Graph) (visited : List String) (name : String) :
    g.pending (name :: visited) ≤ g.pending visited := by
  rw [pending_cons]
  exact total_filter_le _ _ _

/-- Whether an emitter that is switched on is among some nodes or those that they reach, apart from
nodes that have been visited. -/
def reachesLight (g : Graph) (visited : List String) : List String → Bool
  | [] => false
  | name :: rest =>
    if name ∈ visited then reachesLight g visited rest
    else
      match _found : g.get? name with
      | none => reachesLight g (name :: visited) rest
      | some node =>
        node.radiates || reachesLight g (name :: visited) (node.linkedNames ++ rest)
termination_by stack => g.pending visited + stack.length
decreasing_by
  · simp
  · have hle := g.pending_cons_le visited name
    simp only [List.length_cons]
    omega
  · next hnew =>
    have hlt := pending_lt _found hnew
    simp only [List.length_cons, List.length_append]
    omega

/-- Whether a node is an output from which light leaves a surface or a lamp. -/
def Kernel.isLightOutput : Kernel → Bool
  | outputMaterial | outputLight => true
  | _ => false

/-- Whether the graph radiates light. -/
def hasSurfaceEmission (g : Graph) : Bool :=
  g.reachesLight [] (g.namesWhere Kernel.isLightOutput)

end Candela.Graph
