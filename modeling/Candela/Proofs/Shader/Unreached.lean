import Candela.Proofs.Shader.Answers

/-!
# Nodes that are not reached

Compiling looks at the names that the chosen output reaches and at nothing else: two graphs with the
same output that have the same nodes under these names, or both none, are compiled alike
(`emitGraph_eq`). So a graph may hold anything under the other names. `Graph.SameReached.of_edit`
says which edits of one name do not matter: those of a name that is not reached, as long as they do
not put a new output before the one that is chosen.
-/

namespace Candela.Graph

variable {g g' : Graph} {p : Kernel → Bool} {name : String}

/-- A graph with a node under a name, in place of an earlier one. -/
def insert (g : Graph) (name : String) (node : Node) : Graph := ⟨g.nodes.insert name node⟩

/-- A graph without the node of a name. -/
def erase (g : Graph) (name : String) : Graph := ⟨g.nodes.erase name⟩

theorem get?_insert (g : Graph) (name a : String) (node : Node) :
    (g.insert name node).get? a = if a = name then some node else g.get? a :=
  Keyed.get?_insert g.nodes name a node

theorem get?_erase (g : Graph) (name a : String) :
    (g.erase name).get? a = if a = name then none else g.get? a :=
  Keyed.get?_erase g.nodes name a

/-- Two graphs have the same first node of a kind, if any, and agree on all names that it reaches:
under each they have the same node, or both none. -/
structure SameReached (p : Kernel → Bool) (g g' : Graph) : Prop where
  first : ∀ out, g.IsFirst p out ↔ g'.IsFirst p out
  same : ∀ out name, g.IsFirst p out → g.Reaches out name → g.get? name = g'.get? name

/-- A name is not reached from the first node of a kind. -/
def Unreached (p : Kernel → Bool) (g : Graph) (name : String) : Prop :=
  ∀ out, g.IsFirst p out → ¬ g.Reaches out name

/-- There is a first node of a kind, or there is none of the kind. -/
theorem exists_isFirst_or (g : Graph) (p : Kernel → Bool) :
    (∃ out, g.IsFirst p out) ∨ ∀ name node, g.get? name = some node → ¬ p node.kernel := by
  cases hhead : (g.namesWhere p).head? with
  | some out => exact .inl ⟨out, head?_namesWhere_eq_some_iff.1 hhead⟩
  | none => exact .inr (head?_namesWhere_eq_none_iff.1 hhead)

/-- Editing a name that is not reached changes nothing that is reached, unless it makes a node of
the kind that is not behind the first one. -/
theorem SameReached.of_edit (hunreached : Unreached p g name)
    (hedit : ∀ a, a ≠ name → g'.get? a = g.get? a)
    (hbehind : ∀ node, g'.get? name = some node → p node.kernel →
      ∃ out, g.IsFirst p out ∧ out < name) : SameReached p g g' := by
  rcases exists_isFirst_or g p with ⟨out, hfirst⟩ | hnone
  · have hsame : ∀ a, g.Reaches out a → g'.get? a = g.get? a := fun a hreach =>
      hedit a fun heq => hunreached out hfirst (heq ▸ hreach)
    have hfirst' : g'.IsFirst p out := by
      obtain ⟨node, hget, hp⟩ := hfirst.holds
      refine ⟨⟨node, (hsame out .refl).trans hget, hp⟩, fun other node' hget' hp' hlt => ?_⟩
      by_cases hother : other = name
      · subst hother
        obtain ⟨out', hfirst'', hlt'⟩ := hbehind node' hget' hp'
        rw [hfirst''.eq hfirst] at hlt'
        exact String.lt_irrefl _ (String.lt_trans hlt hlt')
      · exact hfirst.first other node' ((hedit other hother).symm.trans hget') hp' hlt
    refine ⟨fun a => ⟨fun ha => ?_, fun ha => ?_⟩, fun a b ha hreach => ?_⟩
    · exact ha.eq hfirst ▸ hfirst'
    · exact ha.eq hfirst' ▸ hfirst
    · exact (hsame b (ha.eq hfirst ▸ hreach)).symm
  · -- without a node of the kind nothing is reached, and there is none after the edit
    have hnone' : ∀ a node, g'.get? a = some node → ¬ p node.kernel := by
      intro a node hget hp
      by_cases ha : a = name
      · subst ha
        obtain ⟨out, hfirst, -⟩ := hbehind node hget hp
        obtain ⟨first, hget', hp'⟩ := hfirst.holds
        exact hnone out first hget' hp'
      · exact hnone a node ((hedit a ha).symm.trans hget) hp
    have hfirst : ∀ a, ¬ g.IsFirst p a := fun a ha => by
      obtain ⟨node, hget, hp⟩ := ha.holds
      exact hnone a node hget hp
    have hfirst' : ∀ a, ¬ g'.IsFirst p a := fun a ha => by
      obtain ⟨node, hget, hp⟩ := ha.holds
      exact hnone' a node hget hp
    exact ⟨fun a => iff_of_false (hfirst a) (hfirst' a), fun a _ ha => absurd ha (hfirst a)⟩

/-- Putting any node under a name that is not reached changes nothing that is reached, unless it is
of the kind and is not behind the first one. -/
theorem Unreached.sameReached_insert {node : Node} (h : Unreached p g name)
    (hbehind : p node.kernel → ∃ out, g.IsFirst p out ∧ out < name) :
    SameReached p g (g.insert name node) := by
  refine .of_edit h (fun a ha => ?_) fun node' hget hp => hbehind ?_
  · rw [get?_insert, if_neg ha]
  · rw [get?_insert, if_pos rfl] at hget
    rwa [Option.some.inj hget]

/-- Removing a node that is not reached changes nothing that is reached. -/
theorem Unreached.sameReached_erase (h : Unreached p g name) :
    SameReached p g (g.erase name) := by
  refine .of_edit h (fun a ha => ?_) fun node hget => ?_
  · rw [get?_erase, if_neg ha]
  · rw [get?_erase, if_pos rfl] at hget
    cases hget

end Candela.Graph

namespace Candela.Shader

open Candela.Graph (Node)

variable {g g' : Graph} {role : Role}

/-- Graphs that only differ in what the output does not reach are compiled alike: the walk ends in
the same way, with the same blocks, variables and slots. -/
theorem emitGraph_eq (h : Graph.SameReached role.accepts g g') (registry : Texture.Registry) :
    (emitGraph g role).run (.start registry) = (emitGraph g' role).run (.start registry) := by
  have hchosen : chosenOutput? g role = chosenOutput? g' role := by
    refine Option.ext fun out => ?_
    rw [chosenOutput?_eq_some_iff, chosenOutput?_eq_some_iff]
    exact h.first out
  unfold emitGraph
  rw [← hchosen]
  cases hout : chosenOutput? g role with
  | none => rfl
  | some out =>
    have hfirst := chosenOutput?_eq_some_iff.1 hout
    exact (emitNode_agrees (g.size + 1) (g'.size + 1) out (.start registry)
      (fun a hreach => h.same out a hfirst hreach)
      (Nat.lt_succ_of_le (length_unmet_start_le g registry))
      (Nat.lt_succ_of_le (length_unmet_start_le g' registry))).1

namespace Library

/-- Graphs that only differ in what the output does not reach are added alike. -/
theorem add_eq (l : Library) (title : String) (h : Graph.SameReached role.accepts g g') :
    l.add title g' role = l.add title g role := by
  rw [add, add, emitGraph_eq h]

end Library

/-- A node with about everything amiss: its type is unknown, it is linked to itself, and an input has
two links. -/
def stray : Node := ⟨.unknown "SCRIPT", .ofList
  [fed "Vector" "Stray" "Color", ("Value", ⟨.other, [⟨"Mix", "Shader"⟩, ⟨"Lost", ""⟩], none⟩)]⟩

/-- The material of two similar closures does not reach a stray node. -/
theorem unreached_stray : Graph.Unreached Role.surface.accepts braid "Stray" := by
  intro out hfirst hreach
  obtain rfl := Option.some.inj ((chosenOutput?_eq_some_iff.2 hfirst).symm.trans
    (show chosenOutput? braid .surface = some "Output" by decide +kernel))
  have hmem : "Stray" ∈ ["Output", "Mix", "Bsdf.001", "Bsdf 001", "Image", "Lost"] :=
    hreach.mem_of_closed (by decide) (by decide +kernel)
  simp at hmem

/-! ## Main result -/

namespace Library

/-- Adding a graph to any library only looks at what the chosen output reaches: graphs with the same
output, if any, and the same nodes under the names that it reaches get the same answer, with the
same library from then on. So nothing changes when any node is put under a name that is not reached,
unless it is an output that is not behind the chosen one, or when a node that is not reached is
removed. -/
theorem add_ignores_unreached (l : Library) (title : String) (g : Graph) (role : Role) :
    (∀ g', Graph.SameReached role.accepts g g' → l.add title g' role = l.add title g role) ∧
    ∀ name, Graph.Unreached role.accepts g name →
      (∀ node : Node, (role.accepts node.kernel → ∃ out, g.IsFirst role.accepts out ∧ out < name) →
        l.add title (g.insert name node) role = l.add title g role) ∧
      l.add title (g.erase name) role = l.add title g role :=
  ⟨fun _ h => l.add_eq title h, fun _ hunreached =>
    ⟨fun _ hbehind => l.add_eq title (hunreached.sameReached_insert hbehind),
      l.add_eq title hunreached.sameReached_erase⟩⟩

/-- A stray node with about everything amiss does not matter, whether it is there or not. -/
theorem stray_ignored :
    Graph.SameReached Role.surface.accepts braid (braid.insert "Stray" stray) ∧
      (after []).add "Braid" (braid.insert "Stray" stray) .surface =
        (after []).add "Braid" braid .surface ∧
    Graph.Unreached Role.surface.accepts braid "Stray" ∧
      Role.surface.accepts stray.kernel = false ∧
      (after []).add "Braid" (braid.insert "Stray" stray) .surface =
        (after []).add "Braid" braid .surface ∧
      (after []).add "Braid" (braid.erase "Stray") .surface =
        (after []).add "Braid" braid .surface := by
  have hkernel : Role.surface.accepts stray.kernel = false := rfl
  have hsame : Graph.SameReached Role.surface.accepts braid (braid.insert "Stray" stray) :=
    unreached_stray.sameReached_insert (by simp [hkernel])
  obtain ⟨hgraphs, hnames⟩ := add_ignores_unreached (after []) "Braid" braid .surface
  obtain ⟨hinsert, herase⟩ := hnames "Stray" unreached_stray
  exact ⟨hsame, hgraphs _ hsame, unreached_stray, hkernel, hinsert stray (by simp [hkernel]),
    herase⟩

end Library

end Candela.Shader
