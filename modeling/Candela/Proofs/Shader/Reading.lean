import Mathlib.Data.Set.Card
import Mathlib.Logic.Relation
import Candela.Graph.Emission
import Candela.Proofs.Texture.Registry
import Candela.Shader.Compile

/-!
# What a graph reads

A node reads from the first link of every input that its kernel uses (`Graph.Reads`); what an output
reads in any number of steps is what its function is made of (`Graph.Reaches`). A graph can be
compiled when nothing that is reached is amiss (`Compilable`), and every error of the compiler names
something that is (`Defect`). The two exclude each other (`Compilable.not_defect`).

Nodes are named here rather than walked: none of these notions mentions the order in which the
compiler meets the nodes, nor its marks.
-/

namespace Candela.Graph

variable {g : Graph} {name source : String} {p : Kernel → Bool}

/-- A node reads from another: its kernel uses one of its inputs, whose first link names the
other. -/
def Reads (g : Graph) (name source : String) : Prop :=
  ∃ node signature, g.get? name = some node ∧ node.kernel.signature? = some signature ∧
    ∃ input ∈ node.inputs.entries, (signature.input? input.1).isSome ∧
      ∃ link, input.2.links.head? = some link ∧ link.node = source

/-- A name is met when reading is followed for any number of steps. -/
abbrev Reaches (g : Graph) : String → String → Prop := Relation.ReflTransGen g.Reads

/-- A name is met again when reading is followed for one step or more. -/
def OnCycle (g : Graph) (name : String) : Prop := Relation.TransGen g.Reads name name

/-- A node that has a kernel samples a texture. -/
def Samples (g : Graph) (name : String) (source : Texture.Source) : Prop :=
  ∃ node signature, g.get? name = some node ∧ node.kernel.signature? = some signature ∧
    Shader.textureOf? node.kernel = some source

/-! ## The first node of a kind -/

/-- A node has a property, and no node whose name comes before its own does. -/
structure IsFirst (g : Graph) (p : Kernel → Bool) (name : String) : Prop where
  /-- The node exists and has the property. -/
  holds : ∃ node, g.get? name = some node ∧ p node.kernel
  /-- Nodes with the property have no smaller name. -/
  first : ∀ other node, g.get? other = some node → p node.kernel → ¬ other < name

/-- There is no more than one first node. -/
theorem IsFirst.eq {name' : String} (h : g.IsFirst p name) (h' : g.IsFirst p name') :
    name = name' := by
  obtain ⟨node, hget, hp⟩ := h.holds
  obtain ⟨node', hget', hp'⟩ := h'.holds
  by_contra hne
  exact h.first name' node' hget' hp' (Keyed.lt_of_not_lt (h'.first name node hget hp) hne)

/-- The first name that is listed is that of the first node. -/
theorem head?_namesWhere_eq_some_iff :
    (g.namesWhere p).head? = some name ↔ g.IsFirst p name := by
  have hfirst : ∀ name, (g.namesWhere p).head? = some name → g.IsFirst p name := by
    intro name h
    rw [namesWhere, List.head?_map, List.head?_filter] at h
    obtain ⟨⟨name, node⟩, hfind, rfl⟩ := Option.map_eq_some_iff.1 h
    obtain ⟨hp, before, after, hsplit, hbefore⟩ := List.find?_eq_some_iff_append.1 hfind
    refine ⟨⟨node, Keyed.get?_eq_some_iff.2 (by rw [hsplit]; simp), hp⟩,
      fun other node' hget hp' hlt => ?_⟩
    have hsorted := g.nodes.sorted
    have hmem := Keyed.get?_eq_some_iff.1 hget
    rw [hsplit] at hsorted hmem
    rcases List.mem_append.1 hmem with hmem | hmem
    · simpa [hp'] using hbefore _ hmem
    · rcases List.mem_cons.1 hmem with heq | hmem
      · cases heq
        exact String.lt_irrefl _ hlt
      · have hafter := (List.pairwise_cons.1 (List.pairwise_append.1 hsorted).2.1).1 _ hmem
        exact String.lt_irrefl _ (String.lt_trans hlt hafter)
  refine ⟨hfirst name, fun h => ?_⟩
  obtain ⟨node, hget, hp⟩ := h.holds
  cases hhead : (g.namesWhere p).head? with
  | some found => rw [(hfirst found hhead).eq h]
  | none =>
    have hnil : g.namesWhere p = [] := List.head?_eq_none_iff.1 hhead
    have hmem : name ∈ g.namesWhere p :=
      List.mem_map.2 ⟨_, List.mem_filter.2 ⟨Keyed.get?_eq_some_iff.1 hget, hp⟩, rfl⟩
    simp [hnil] at hmem

/-- No name is listed if and only if no node has the property. -/
theorem head?_namesWhere_eq_none_iff :
    (g.namesWhere p).head? = none ↔ ∀ name node, g.get? name = some node → ¬ p node.kernel := by
  rw [List.head?_eq_none_iff, namesWhere, List.map_eq_nil_iff, List.filter_eq_nil_iff]
  constructor
  · intro h name node hget
    exact h _ (Keyed.get?_eq_some_iff.1 hget)
  · intro h e he
    exact h e.1 e.2 (Keyed.get?_eq_some_iff.2 he)

/-- A reached name is the output or is read from by a reached node. -/
theorem Reaches.eq_or_reads {out : String} (h : g.Reaches out name) :
    name = out ∨ ∃ reader, g.Reaches out reader ∧ g.Reads reader name := by
  rcases Relation.ReflTransGen.cases_tail h with heq | ⟨reader, hreach, hreads⟩
  · exact .inl heq
  · exact .inr ⟨reader, hreach, hreads⟩

/-- Reading follows links. -/
theorem Reads.mem_linkedNames (h : g.Reads name source) :
    ∃ node, g.get? name = some node ∧ source ∈ node.linkedNames := by
  obtain ⟨node, -, hget, -, input, hinput, -, link, hlink, rfl⟩ := h
  refine ⟨node, hget, List.mem_flatMap.2 ⟨input.2, List.mem_map_of_mem hinput, ?_⟩⟩
  exact List.mem_map_of_mem (List.mem_of_mem_head? hlink)

/-- Reading does not leave names that are closed under links. -/
theorem Reaches.mem_of_closed {out : String} {names : List String} (h : g.Reaches out name)
    (hout : out ∈ names)
    (hclosed : ∀ n ∈ names, ∀ node ∈ g.get? n, ∀ s ∈ node.linkedNames, s ∈ names) :
    name ∈ names := by
  induction h with
  | refl => exact hout
  | tail _ hreads ih =>
    obtain ⟨node, hget, hsource⟩ := hreads.mem_linkedNames
    exact hclosed _ ih node hget _ hsource

end Candela.Graph

namespace Candela.Shader

open Candela.Graph (Kernel)

variable {g : Graph} {registry : Texture.Registry} {out : String}

/-- The identities of the textures that have slots and of those that the reached nodes sample. -/
def neededKeys (g : Graph) (registry : Texture.Registry) (out : String) : Set String :=
  {key | key ∈ registry.keys} ∪
    {key | ∃ name source, g.Reaches out name ∧ g.Samples name source ∧ source.key = key}

/-- Nothing that an output reaches is amiss, and there are slots for all textures. -/
structure Compilable (g : Graph) (registry : Texture.Registry) (out : String) : Prop where
  /-- Every reached name is that of a node with a kernel. -/
  supported : ∀ name, g.Reaches out name →
    ∃ node, g.get? name = some node ∧ capability node.kernel ≠ .unsupported
  /-- No input of a reached node, whether it is used or not, has more than one link. -/
  single : ∀ name node, g.Reaches out name → g.get? name = some node →
    ∀ input ∈ node.inputs.entries, input.2.links.length ≤ 1
  /-- No reached node reads, in however many steps, from itself. -/
  acyclic : ∀ name, g.Reaches out name → ¬ g.OnCycle name
  /-- The textures have no more than sixteen identities. -/
  textures : (neededKeys g registry out).encard ≤ 16

/-- What is amiss with a graph when it is rejected with some error. -/
inductive Defect (g : Graph) (registry : Texture.Registry) (out : String) : Error → Prop where
  /-- A reached node reads from itself in some number of steps. -/
  | cycle {name : String} (hreach : g.Reaches out name) (hcycle : g.OnCycle name) :
      Defect g registry out (.cycleDetected name)
  /-- An input of a reached node has more than one link. -/
  | links {name : String} {node : Graph.Node} {input : String × Graph.Input}
      (hreach : g.Reaches out name) (hget : g.get? name = some node)
      (hinput : input ∈ node.inputs.entries) (hlinks : 1 < input.2.links.length) :
      Defect g registry out (.multiInputDetected name input.1)
  /-- A reached node reads from a name that no node has. -/
  | missing {reader name : String} (hreach : g.Reaches out reader) (hreads : g.Reads reader name)
      (hget : g.get? name = none) : Defect g registry out (.missingNode name)
  /-- A reached node has no kernel. -/
  | unsupported {name : String} {node : Graph.Node} (hreach : g.Reaches out name)
      (hget : g.get? name = some node) (hkernel : capability node.kernel = .unsupported) :
      Defect g registry out (.unsupportedKernel (unsupportedTag node.kernel))
  /-- More than sixteen textures are needed. -/
  | textures (hmany : 16 < (neededKeys g registry out).encard) :
      Defect g registry out Texture.Registry.full

/-- A node type is refused if and only if no kernel implements it. -/
theorem capability_eq_unsupported_iff {k : Kernel} :
    capability k = .unsupported ↔ k.signature? = none := by
  unfold capability
  split
  · next h => simp [h]
  · next s h =>
    rw [h]
    cases s.isStub <;> simp

/-- There is no error for a graph with which nothing is amiss. -/
theorem Compilable.not_defect {e : Error} (h : Compilable g registry out) :
    ¬ Defect g registry out e := by
  intro hdefect
  cases hdefect with
  | cycle hreach hcycle => exact h.acyclic _ hreach hcycle
  | links hreach hget hinput hlinks =>
    exact absurd hlinks (Nat.not_lt_of_le (h.single _ _ hreach hget _ hinput))
  | missing hreach hreads hget =>
    obtain ⟨node, hnode, -⟩ := h.supported _ (hreach.tail hreads)
    rw [hget] at hnode
    cases hnode
  | unsupported hreach hget hkernel =>
    obtain ⟨node, hnode, hsupported⟩ := h.supported _ hreach
    rw [hget] at hnode
    cases hnode
    exact hsupported hkernel
  | textures hmany => exact absurd h.textures (not_le_of_gt hmany)

end Candela.Shader
