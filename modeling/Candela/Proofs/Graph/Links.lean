import Candela.Proofs.Graph.Emission

/-!
# Light is found just where links lead to it

A graph radiates light if and only if some links, each on any input of a node and any of several on
it, lead from an output for materials or lights to an emitter that is switched on
(`hasSurfaceEmission_iff`). Whatever the search finds is such an emitter, since the stack only ever
holds what links lead to (`exists_lights_of_reachesLight`); and a search without a find has gone
through names that no link leaves (`Unlit.mem_of_leads`). Neither direction asks anything of the
graph, which may have cycles, and links to nodes that do not exist.
-/

namespace Candela.Graph

variable {g : Graph} {visited stack names : List String} {name out source : String} {n : Node}

/-! ## Links -/

/-- A node has an input with a link that names another node. -/
def Linked (g : Graph) (name source : String) : Prop :=
  ∃ node socket input link, g.get? name = some node ∧ node.inputs.get? socket = some input ∧
    link ∈ input.links ∧ link.node = source

/-- Links lead from a name to another one, in any number of steps. -/
abbrev Leads (g : Graph) : String → String → Prop := Relation.ReflTransGen g.Linked

/-- What a node's links name. -/
theorem mem_linkedNames_iff : source ∈ n.linkedNames ↔
    ∃ socket input link, n.inputs.get? socket = some input ∧ link ∈ input.links ∧
      link.node = source := by
  simp only [Node.linkedNames, List.mem_flatMap, List.mem_map, Keyed.mem_values_iff]
  constructor
  · rintro ⟨input, ⟨socket, hinput⟩, link, hlink, rfl⟩
    exact ⟨socket, input, link, hinput, hlink, rfl⟩
  · rintro ⟨socket, input, link, hinput, hlink, rfl⟩
    exact ⟨input, ⟨socket, hinput⟩, link, hlink, rfl⟩

/-- A name is linked if a node of it has the other one among its links. -/
theorem linked_iff :
    g.Linked name source ↔ ∃ node, g.get? name = some node ∧ source ∈ node.linkedNames := by
  simp only [Linked, mem_linkedNames_iff, exists_and_left]

/-- Links do not lead out of names that are closed under them. -/
theorem Unlit.mem_of_leads (h : g.Unlit names names) (hout : out ∈ names)
    (hleads : g.Leads out name) : name ∈ names := by
  induction hleads with
  | refl => exact hout
  | tail _ hlinked ih =>
    obtain ⟨node, hget, hsource⟩ := linked_iff.1 hlinked
    exact (h _ ih node hget).2 _ hsource

/-! ## Emitters -/

/-- A node is an emitter that is switched on. -/
def Lights (g : Graph) (name : String) : Prop :=
  ∃ node, g.get? name = some node ∧ (node.kernel = .emission ∨ node.kernel = .background) ∧
    node.Driven

/-- An emitter is switched on by its strength only. -/
theorem Node.emits_iff : n.emits = true ↔ n.Driven := by
  refine ⟨fun h => ?_, Node.Driven.emits⟩
  rw [Node.emits] at h
  split at h
  · next hnone => exact .inl hnone
  · next strength hget =>
    refine .inr ⟨strength, hget, ?_⟩
    rcases Bool.or_eq_true_iff.1 h with hlinked | hliteral
    · left
      simpa [Input.isLinked] using hlinked
    · right
      split at hliteral
      · next v hv =>
        exact ⟨v, hv, Literal.isZero_eq_false_iff.1 (by simpa using hliteral)⟩
      · cases hliteral

/-- There are two kinds of emitters. -/
theorem Kernel.isEmitter_iff {k : Kernel} :
    k.isEmitter = true ↔ k = .emission ∨ k = .background := by
  cases k <;> simp [Kernel.isEmitter]

/-- What a node that radiates light is. -/
theorem Node.radiates_iff :
    n.radiates = true ↔ (n.kernel = .emission ∨ n.kernel = .background) ∧ n.Driven := by
  rw [Node.radiates, Bool.and_eq_true_iff, Kernel.isEmitter_iff, Node.emits_iff]

/-- A node that radiates light is an emitter that is switched on. -/
theorem lights_iff : g.Lights name ↔ ∃ node, g.get? name = some node ∧ node.radiates = true := by
  simp only [Lights, Node.radiates_iff]

/-! ## Searching -/

/-- What a search finds is behind one of the nodes that it starts from. -/
theorem exists_lights_of_reachesLight (h : g.reachesLight visited stack = true) :
    ∃ start ∈ stack, ∃ name, g.Leads start name ∧ g.Lights name := by
  fun_induction reachesLight g visited stack with
  | case1 => cases h
  | case2 visited first rest _ ih | case3 visited first rest _ _ ih =>
    obtain ⟨start, hstart, hfound⟩ := ih h
    exact ⟨start, List.mem_cons_of_mem _ hstart, hfound⟩
  | case4 visited first rest _ node hget ih =>
    rcases Bool.or_eq_true_iff.1 h with hradiates | hlater
    · exact ⟨first, List.mem_cons_self, first, .refl, lights_iff.2 ⟨node, hget, hradiates⟩⟩
    · obtain ⟨start, hstart, name, hleads, hlights⟩ := ih hlater
      rcases List.mem_append.1 hstart with hlink | hrest
      · -- what is found behind a link of a node is found behind the node
        have hlinked : g.Linked first start := linked_iff.2 ⟨node, hget, hlink⟩
        exact ⟨first, List.mem_cons_self, name, .head hlinked hleads, hlights⟩
      · exact ⟨start, List.mem_cons_of_mem _ hrest, name, hleads, hlights⟩

/-- A search that finds nothing has nothing to find. -/
theorem not_lights_of_not_reachesLight (h : g.reachesLight [] stack = false) {start : String}
    (hstart : start ∈ stack) (hleads : g.Leads start name) : ¬ g.Lights name := by
  intro hlights
  obtain ⟨names, -, hstack, hunlit⟩ := exists_unlit_of_not_reachesLight h nofun
  obtain ⟨node, hget, hradiates⟩ := lights_iff.1 hlights
  have hdark := (hunlit name (hunlit.mem_of_leads (hstack hstart) hleads) node hget).1
  rw [hdark] at hradiates
  cases hradiates

/-! ## Outputs -/

/-- A node is an output from which light leaves a surface or a lamp. -/
def Outlet (g : Graph) (name : String) : Prop :=
  ∃ node, g.get? name = some node ∧
    (node.kernel = .outputMaterial ∨ node.kernel = .outputLight)

/-- The search starts from these outputs. -/
theorem mem_namesWhere_isLightOutput_iff :
    out ∈ g.namesWhere Kernel.isLightOutput ↔ g.Outlet out := by
  have hkernel (k : Kernel) :
      k.isLightOutput = true ↔ k = .outputMaterial ∨ k = .outputLight := by
    cases k <;> simp [Kernel.isLightOutput]
  simp only [namesWhere, List.mem_map, List.mem_filter, hkernel]
  constructor
  · rintro ⟨e, ⟨he, houtput⟩, rfl⟩
    exact ⟨e.2, Keyed.get?_eq_some_iff.2 he, houtput⟩
  · rintro ⟨node, hget, houtput⟩
    exact ⟨(out, node), ⟨Keyed.get?_eq_some_iff.1 hget, houtput⟩, rfl⟩

/-- A graph radiates light if and only if links lead from an output for materials or lights to an
emitter that is switched on. An emitter to which they lead from outputs for the world only does not
make it radiate. -/
theorem hasSurfaceEmission_iff (g : Graph) :
    (g.hasSurfaceEmission = true ↔ ∃ out name, g.Outlet out ∧ g.Leads out name ∧ g.Lights name) ∧
    ((∀ out output name, g.get? out = some output → output.kernel.isOutput = true →
        g.Leads out name → g.Lights name → output.kernel = .outputWorld) →
      g.hasSurfaceEmission = false) := by
  have hiff : g.hasSurfaceEmission = true ↔
      ∃ out name, g.Outlet out ∧ g.Leads out name ∧ g.Lights name := by
    constructor
    · intro h
      obtain ⟨out, hout, name, hleads, hlights⟩ := exists_lights_of_reachesLight h
      exact ⟨out, name, mem_namesWhere_isLightOutput_iff.1 hout, hleads, hlights⟩
    · rintro ⟨out, name, hout, hleads, hlights⟩
      by_contra hdark
      exact not_lights_of_not_reachesLight (Bool.eq_false_iff.2 hdark)
        (mem_namesWhere_isLightOutput_iff.2 hout) hleads hlights
  refine ⟨hiff, fun hworld => Bool.eq_false_iff.2 fun h => ?_⟩
  obtain ⟨out, name, ⟨output, hget, houtput⟩, hleads, hlights⟩ := hiff.1 h
  have hisOutput : output.kernel.isOutput = true := by
    rcases houtput with hkernel | hkernel <;> rw [hkernel] <;> rfl
  have hkernel := hworld out output name hget hisOutput hleads hlights
  rcases houtput with hmaterial | hlight
  · rw [hmaterial] at hkernel
    cases hkernel
  · rw [hlight] at hkernel
    cases hkernel

end Candela.Graph
