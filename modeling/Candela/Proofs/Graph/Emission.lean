import Candela.Graph.Emission
import Candela.Proofs.Shader.Blocks
import Candela.Proofs.Shader.Typing

/-!
# Light that is not missed

The search for light follows all links of all outputs for materials and lights; what a function is
made of is read through the first links of used inputs, from one output. A search that finds nothing
has gone through a set of names that is closed under links (`Graph.Unlit`,
`Graph.exists_unlit_of_not_reachesLight`), and reading does not leave such a set. So a function that
runs an emitter which is switched on has been compiled from a graph in which light is found
(`Shader.Function.Complete.hasSurfaceEmission`).
-/

namespace Candela.Graph

variable {g : Graph} {visited stack names : List String} {name out source : String}

/-- The numbers of a literal. -/
def Literal.components : Literal → List Float32
  | .scalar x => [x]
  | .vector xs => xs

/-- A literal with a component other than zero is not zero. -/
theorem Literal.isZero_eq_false_iff {v : Literal} :
    v.isZero = false ↔ ∃ x ∈ v.components, (x == 0) = false := by
  cases v with
  | scalar x => simp [isZero, components]
  | vector xs => simp [isZero, components, List.all_eq_false]

/-- The strength of an emitter is linked, or a literal with a component other than zero, or it is
left out. -/
def Node.Driven (n : Node) : Prop :=
  n.inputs.get? "Strength" = none ∨
    ∃ strength, n.inputs.get? "Strength" = some strength ∧
      (strength.links ≠ [] ∨
        ∃ v, strength.value = some v ∧ ∃ x ∈ v.components, (x == 0) = false)

/-- An emitter with such a strength is switched on. -/
theorem Node.Driven.emits {n : Node} (h : n.Driven) : n.emits = true := by
  rw [Node.emits]
  rcases h with hnone | ⟨strength, hget, hlinks | ⟨v, hv, hx⟩⟩
  · rw [hnone]
  · rw [hget]
    simp [Input.isLinked, hlinks]
  · rw [hget]
    simp [hv, Literal.isZero_eq_false_iff.2 hx]

/-! ## Searching for light -/

/-- No node of some names is an emitter that is switched on, and what they link to is among some
names as well. -/
def Unlit (g : Graph) (names targets : List String) : Prop :=
  ∀ name ∈ names, ∀ node, g.get? name = some node →
    node.radiates = false ∧ ∀ source ∈ node.linkedNames, source ∈ targets

/-- What some names link to is among more names. -/
theorem Unlit.mono {targets targets' : List String} (h : g.Unlit names targets)
    (hsub : targets ⊆ targets') : g.Unlit names targets' := by
  intro name hname node hget
  obtain ⟨hdark, hlinks⟩ := h name hname node hget
  exact ⟨hdark, fun source hsource => hsub (hlinks source hsource)⟩

/-- One more name of which there is no emitter that is switched on. -/
theorem Unlit.cons {targets : List String} (h : g.Unlit names targets)
    (hname : ∀ node, g.get? name = some node →
      node.radiates = false ∧ ∀ source ∈ node.linkedNames, source ∈ targets) :
    g.Unlit (name :: names) targets := by
  intro n hn
  rcases List.mem_cons.1 hn with rfl | hn
  · exact hname
  · exact h n hn

/-- A search that finds no light has gone through names that are closed under links. What carries
the induction is that the names visited so far only link to each other and to the stack. -/
theorem exists_unlit_of_not_reachesLight (h : g.reachesLight visited stack = false)
    (hvisited : g.Unlit visited (visited ++ stack)) :
    ∃ names, visited ⊆ names ∧ stack ⊆ names ∧ g.Unlit names names := by
  fun_induction reachesLight g visited stack with
  | case1 visited =>
    rw [List.append_nil] at hvisited
    exact ⟨visited, List.Subset.refl _, List.nil_subset _, hvisited⟩
  | case2 visited name rest hname ih =>
    have htargets : visited ++ name :: rest ⊆ visited ++ rest := by
      intro source hsource
      simp only [List.mem_append, List.mem_cons] at hsource ⊢
      rcases hsource with hsource | rfl | hsource
      · exact .inl hsource
      · exact .inl hname
      · exact .inr hsource
    obtain ⟨names, hsub, hrest, hunlit⟩ := ih h (hvisited.mono htargets)
    exact ⟨names, hsub, List.cons_subset.2 ⟨hsub hname, hrest⟩, hunlit⟩
  | case3 visited name rest hnew hnone ih =>
    have htargets : visited ++ name :: rest ⊆ name :: visited ++ rest :=
      List.perm_middle.subset
    have hcons : g.Unlit (name :: visited) (name :: visited ++ rest) := by
      refine (hvisited.mono htargets).cons fun node hget => ?_
      rw [hnone] at hget
      cases hget
    obtain ⟨names, hsub, hrest, hunlit⟩ := ih h hcons
    obtain ⟨hname, hsub⟩ := List.cons_subset.1 hsub
    exact ⟨names, hsub, List.cons_subset.2 ⟨hname, hrest⟩, hunlit⟩
  | case4 visited name rest hnew node hfound ih =>
    rw [Bool.or_eq_false_iff] at h
    have htargets : visited ++ name :: rest ⊆ name :: visited ++ (node.linkedNames ++ rest) := by
      intro source hsource
      have hmem := List.perm_middle.subset hsource
      simp only [List.mem_append, List.mem_cons] at hmem ⊢
      tauto
    have hcons : g.Unlit (name :: visited) (name :: visited ++ (node.linkedNames ++ rest)) := by
      refine (hvisited.mono htargets).cons fun node' hget => ?_
      rw [hfound] at hget
      cases hget
      refine ⟨h.1, fun source hsource => ?_⟩
      exact List.mem_append_right _ (List.mem_append_left _ hsource)
    obtain ⟨names, hsub, hstack, hunlit⟩ := ih h.2 hcons
    obtain ⟨hname, hsub⟩ := List.cons_subset.1 hsub
    exact ⟨names, hsub, List.cons_subset.2 ⟨hname, (List.append_subset.1 hstack).2⟩, hunlit⟩

/-- Reading does not leave names that are closed under links. -/
theorem Unlit.mem_of_reaches (h : g.Unlit names names) (hout : out ∈ names)
    (hreach : g.Reaches out name) : name ∈ names :=
  hreach.mem_of_closed hout fun n hn node hget => (h n hn node hget).2

/-- Light is found if an emitter that is switched on is read from an output for materials or
lights. -/
theorem hasSurfaceEmission_of_reaches {output node : Node} (hget : g.get? out = some output)
    (houtput : output.kernel.isLightOutput = true) (hreach : g.Reaches out name)
    (hnode : g.get? name = some node) (hlight : node.radiates = true) :
    g.hasSurfaceEmission = true := by
  rw [hasSurfaceEmission, ← Bool.not_eq_false]
  intro hdark
  obtain ⟨names, -, hstack, hunlit⟩ := exists_unlit_of_not_reachesLight hdark nofun
  have hout : out ∈ g.namesWhere Kernel.isLightOutput :=
    List.mem_map.2 ⟨_, List.mem_filter.2 ⟨Keyed.get?_eq_some_iff.1 hget, houtput⟩, rfl⟩
  have hname := hunlit.mem_of_reaches (hstack hout) hreach
  rw [(hunlit name hname node hnode).1] at hlight
  cases hlight

end Candela.Graph

namespace Candela.Shader

variable {f : Function} {g : Graph} {k : Graph.Kernel} {s : Signature}

/-- The kernels that radiate light. -/
def emitterNames : List String := ["Emission", "Background"]

/-- A function invokes an emitter of a graph whose strength is not switched off. -/
def Function.RunsEmitter (f : Function) (g : Graph) : Prop :=
  ∃ b ∈ f.blocks, b.invocation.signature.name ∈ emitterNames ∧
    ∃ node, g.get? b.node = some node ∧ node.Driven

/-- Only emitters are implemented by the kernels that radiate light. -/
theorem isEmitter_of_signature? (h : k.signature? = some s) (hname : s.name ∈ emitterNames) :
    k.isEmitter = true := by
  have himplementation := (mem_catalogue_of_signature? h).2
  cases k with
  | emission | background => rfl
  | unknown tag => cases himplementation
  | texSky p =>
    rw [Graph.Kernel.implementation?] at himplementation
    split at himplementation
    · rw [← Option.some.inj himplementation] at hname
      simp [emitterNames] at hname
    · cases himplementation
  | _ =>
    rw [← Option.some.inj himplementation] at hname
    simp [emitterNames] at hname

/-- An output that is compiled as a surface is one for which light is searched. -/
theorem isLightOutput_of_accepts (h : Role.surface.accepts k = true) : k.isLightOutput = true := by
  cases k with
  | outputMaterial => rfl
  | _ => cases h

/-- A surface that runs an emitter has been compiled from a graph in which light is found. -/
theorem Function.Complete.hasSurfaceEmission (h : f.Complete g) (hrole : f.role = .surface)
    (hruns : f.RunsEmitter g) : g.hasSurfaceEmission = true := by
  obtain ⟨b, hb, hname, node, hnode, hdriven⟩ := hruns
  obtain ⟨out, hfirst, hreach⟩ := (h.reached b.node).1 (List.mem_map_of_mem hb)
  obtain ⟨output, houtput, haccepted⟩ := hfirst.holds
  rw [hrole] at haccepted
  obtain ⟨node', hnode', hsignature⟩ := h.kernel b hb
  rw [hnode] at hnode'
  obtain rfl := Option.some.inj hnode'
  refine Graph.hasSurfaceEmission_of_reaches houtput (isLightOutput_of_accepts haccepted) hreach
    hnode ?_
  rw [Graph.Node.radiates, isEmitter_of_signature? hsignature hname, hdriven.emits]
  rfl

end Candela.Shader
