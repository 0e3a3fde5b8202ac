import Candela.Proofs.Shader.Agreement
import Candela.Shader.Library

/-!
# Libraries that are made by adding graphs

When the walk of an output has ended, the blocks are those of the nodes that the output reaches
(`Visited.mem_written_iff`), none of which lies on a cycle since a block stands behind all that it
reads in any number of steps; so there is nothing amiss with the graph (`Visited.compilable`).
`emitGraph_meets` puts the choice of the output before the walk.

`Library.Addition` lists what adding a graph can come to: a function is appended, empty or with the
blocks of the chosen output, or the graph has a defect and the library stays as it was.
`Library.add_addition` says that there is nothing else. It needs the registry to be well-formed,
which holds of every library that is made by adding graphs to the empty one, in any number and with
any outcomes (`Library.after`, `Library.after_wellFormed`).

A node gets its variable when it is first asked for, and the variable is a fresh name made from the
name of the node. So what holds of every such fresh name holds of all variables that a walk gives to
nodes (`emitGraph_variables`), and what follows from it for the code of a node holds of all blocks
of a library (`Library.after_blocks`).
-/

namespace Candela.Shader

variable {g : Graph} {initial : Texture.Registry} {out name : String} {q : Progress} {role : Role}

/-! ## A walked output -/

/-- What a block reads in some number of steps stands before it. -/
theorem Progress.Sound.mem_before_of_transGen {before after : List Block} {b : Block}
    {source : String} (h : q.Sound g initial out) (hsplit : q.blocks = before ++ b :: after)
    (hreads : Relation.TransGen g.Reads b.node source) : source ∈ before.map Block.node := by
  induction hreads with
  | single hreads => exact h.ordered before b after hsplit _ hreads
  | tail _ hreads ih =>
    obtain ⟨b', hb', rfl⟩ := List.mem_map.1 ih
    obtain ⟨first, second, rfl⟩ := List.append_of_mem hb'
    have hsplit' : q.blocks = first ++ b' :: (second ++ b :: after) := by
      rw [hsplit, List.append_assoc, List.cons_append]
    have hmem := h.ordered first b' (second ++ b :: after) hsplit' _ hreads
    rw [List.map_append]
    exact List.mem_append_left _ hmem

/-- No node that has been written lies on a cycle. -/
theorem Progress.Sound.not_onCycle (h : q.Sound g initial out) (hmem : name ∈ q.written) :
    ¬ g.OnCycle name := by
  intro hcycle
  obtain ⟨b, hb, rfl⟩ := List.mem_map.1 hmem
  obtain ⟨before, after, hsplit⟩ := List.append_of_mem hb
  have hbefore := h.mem_before_of_transGen hsplit hcycle
  have hnodup := h.nodup
  rw [Progress.written, hsplit, List.map_append, List.map_cons] at hnodup
  exact (List.nodup_append.1 hnodup).2.2 _ hbefore _ List.mem_cons_self rfl

/-- A node that has been written stands behind all that it reads. -/
theorem Progress.Sound.mem_written_of_reads {source : String} (h : q.Sound g initial out)
    (hmem : name ∈ q.written) (hreads : g.Reads name source) : source ∈ q.written := by
  obtain ⟨b, hb, rfl⟩ := List.mem_map.1 hmem
  obtain ⟨before, after, hsplit⟩ := List.append_of_mem hb
  have hbefore := h.ordered before b after hsplit source hreads
  rw [Progress.written, hsplit, List.map_append]
  exact List.mem_append_left _ hbefore

/-- Walking an output writes the nodes that it reaches, and no others. -/
theorem Visited.mem_written_iff (h : Visited g initial out (.start initial) out q) :
    name ∈ q.written ↔ g.Reaches out name := by
  constructor
  · intro hmem
    refine h.sound.reached name ?_
    rw [(h.sound.emitted_iff name).2 hmem]
    exact Option.some_ne_none _
  · intro hreach
    induction hreach with
    | refl => exact h.written
    | tail _ hreads ih => exact h.sound.mem_written_of_reads ih hreads

/-- A graph whose output has been walked can be compiled. -/
theorem Visited.compilable (h : Visited g initial out (.start initial) out q) :
    Compilable g initial out := by
  have hcode : ∀ name, g.Reaches out name →
      ∃ b node signature slot, b.node = name ∧ CodeOf g q b node signature slot := by
    intro name hreach
    obtain ⟨b, hb, rfl⟩ := List.mem_map.1 (h.mem_written_iff.2 hreach)
    obtain ⟨node, signature, slot, hcode⟩ := h.sound.code b hb
    exact ⟨b, node, signature, slot, rfl, hcode⟩
  refine ⟨fun name hreach => ?_, fun name node hreach hget => ?_,
    fun name hreach => h.sound.not_onCycle (h.mem_written_iff.2 hreach), ?_⟩
  · obtain ⟨b, node, signature, slot, rfl, hcode⟩ := hcode name hreach
    refine ⟨node, hcode.get, fun hunsupported => ?_⟩
    rw [capability_eq_unsupported_iff, hcode.kernel] at hunsupported
    cases hunsupported
  · obtain ⟨b, node', signature, slot, rfl, hcode⟩ := hcode name hreach
    rw [hcode.get] at hget
    cases hget
    exact hcode.single
  · -- every needed identity has one of the slots that are in use
    have hsub : neededKeys g initial out ⊆ (q.registry.keys.toFinset : Set String) := by
      rintro key (hkey | ⟨name, source, hreach, hsamples, rfl⟩)
      · refine List.mem_toFinset.2 (((h.sound.added.map Texture.Source.key).subset) hkey)
      · obtain ⟨b, node, signature, slot, rfl, hcode⟩ := hcode name hreach
        obtain ⟨node', signature', hget, -, hsource⟩ := hsamples
        rw [hcode.get] at hget
        cases hget
        exact List.mem_toFinset.2
          (h.sound.registry.mem_keys_iff.2 ⟨slot, hcode.texture source hsource⟩)
    have hcard : (q.registry.keys.toFinset : Set String).encard ≤ 16 := by
      rw [Set.encard_coe_eq_coe_finsetCard]
      have hlength : q.registry.keys.toFinset.card ≤ 16 :=
        Nat.le_trans (List.toFinset_card_le _)
          (Nat.le_trans (Nat.le_of_eq Texture.Registry.length_keys) h.sound.registry.size_le)
      exact_mod_cast hlength
    exact (Set.encard_le_encard hsub).trans hcard

/-- How compiling a graph ends. Without an output for the role nothing is done. -/
theorem emitGraph_meets (h : initial.WellFormed) (g : Graph) (role : Role) :
    Meets (emitGraph g role) (.start initial)
      (fun _ q => (chosenOutput? g role = none ∧ q = .start initial) ∨
        ∃ out, chosenOutput? g role = some out ∧ Visited g initial out (.start initial) out q)
      (fun e q => ∃ out, chosenOutput? g role = some out ∧ Rejected g initial out e q) := by
  unfold emitGraph
  split
  · next hnone => exact .pure (.inl ⟨hnone, rfl⟩)
  · next out hout =>
    obtain ⟨node, hget, -⟩ := (Graph.head?_namesWhere_eq_some_iff.1 hout).holds
    have hexists : g.get? out ≠ none := by
      rw [hget]
      exact Option.some_ne_none _
    have habove : ∀ a, (Progress.start initial).marks.get? a = some .pending →
        Relation.TransGen g.Reads a out := fun a ha => nomatch ha
    refine Meets.mono (emitNode_meets hexists _ out _ (.start h) .refl habove
      (Nat.lt_succ_of_le (length_unmet_start_le g initial)))
      (fun _ q hq => .inr ⟨out, hout, hq⟩) (fun e q hq => ⟨out, hout, hq⟩)

/-! ## Libraries -/

variable {l : Library} {title : String}

/-- What is asked of a library: the function of a graph in some role. -/
structure Request where
  /-- The name of the material. -/
  title : String
  /-- What is compiled. -/
  graph : Graph
  /-- What it is compiled for. -/
  role : Role

namespace Library

/-- The library after a function has been compiled. -/
def withFunction (l : Library) (title : String) (role : Role) (registry : Texture.Registry)
    (blocks : List Block) : Library :=
  ⟨registry, l.functions ++ [⟨role, title, l.freshName title, blocks⟩]⟩

/-- What adding a graph comes to: an answer and the library from then on. -/
inductive Addition (l : Library) (title : String) (g : Graph) (role : Role) :
    Except Error Nat × Library → Prop where
  /-- There is no output for the role: the function is empty. -/
  | empty (hchosen : chosenOutput? g role = none) :
      Addition l title g role
        (.ok (l.table role).length, l.withFunction title role l.registry [])
  /-- The output has been walked: the function has the blocks that were written. -/
  | compiled {out : String} {q : Progress} (hchosen : chosenOutput? g role = some out)
      (hvisited : Visited g l.registry out (.start l.registry) out q) :
      Addition l title g role
        (.ok (l.table role).length, l.withFunction title role q.registry q.blocks)
  /-- Something is amiss with the graph: nothing has happened. -/
  | rejected {out : String} {e : Error} (hchosen : chosenOutput? g role = some out)
      (hdefect : Defect g l.registry out e) : Addition l title g role (.error e, l)

/-- Adding a graph comes to nothing else. -/
theorem add_addition (h : l.registry.WellFormed) (title : String) (g : Graph) (role : Role) :
    l.Addition title g role (l.add title g role) := by
  have hmeets := emitGraph_meets h g role
  unfold add
  cases hrun : (emitGraph g role).run (.start l.registry) with
  | ok _ q =>
    rcases hmeets.of_ok hrun with ⟨hchosen, rfl⟩ | ⟨out, hchosen, hvisited⟩
    · exact .empty hchosen
    · exact .compiled hchosen hvisited
  | error e q =>
    obtain ⟨out, hchosen, hrejected⟩ := hmeets.of_error hrun
    -- the slots that were given while the graph was walked are given back
    have hback := Texture.Registry.truncate_of_extends h hrejected.registry hrejected.added
    show l.Addition title g role (.error e, { l with registry := _ })
    rw [hback]
    exact .rejected hchosen hrejected.defect

/-- Whatever adding a graph comes to, the registry stays well-formed. -/
theorem Addition.wellFormed {a : Except Error Nat × Library} (h : l.registry.WellFormed)
    (ha : l.Addition title g role a) : a.2.registry.WellFormed := by
  cases ha with
  | empty => exact h
  | compiled _ hvisited => exact hvisited.sound.registry
  | rejected => exact h

/-- An added graph has been compiled, or it has no output for the role. -/
theorem Addition.of_ok {i : Nat} {l' : Library} (h : l.Addition title g role (.ok i, l')) :
    i = (l.table role).length ∧ ∃ registry blocks,
      l' = l.withFunction title role registry blocks ∧
        ((chosenOutput? g role = none ∧ registry = l.registry ∧ blocks = []) ∨
          ∃ out q, chosenOutput? g role = some out ∧ registry = q.registry ∧ blocks = q.blocks ∧
            Visited g l.registry out (.start l.registry) out q) := by
  cases h with
  | empty hchosen => exact ⟨rfl, _, _, rfl, .inl ⟨hchosen, rfl, rfl⟩⟩
  | compiled hchosen hvisited => exact ⟨rfl, _, _, rfl, .inr ⟨_, _, hchosen, rfl, rfl, hvisited⟩⟩

/-- A graph that has not been added leaves the library as it was. -/
theorem Addition.of_error {e : Error} {l' : Library} (h : l.Addition title g role (.error e, l')) :
    l' = l := by
  cases h with
  | rejected => rfl

/-! ## Any number of graphs -/

/-- Adds the functions that are asked for, one after another. The answers are in the order of the
requests. -/
def addAll (l : Library) : List Request → List (Except Error Nat) × Library
  | [] => ([], l)
  | r :: rest =>
    let (answer, l) := l.add r.title r.graph r.role
    let (answers, l) := l.addAll rest
    (answer :: answers, l)

/-- The library after some requests. -/
def after (requests : List Request) : Library := (Library.empty.addAll requests).2

theorem addAll_cons (l : Library) (r : Request) (rest : List Request) :
    l.addAll (r :: rest) =
      ((l.add r.title r.graph r.role).1 :: ((l.add r.title r.graph r.role).2.addAll rest).1,
        ((l.add r.title r.graph r.role).2.addAll rest).2) := rfl

/-- Requests are answered one after another. -/
theorem addAll_append (l : Library) (requests requests' : List Request) :
    l.addAll (requests ++ requests') =
      ((l.addAll requests).1 ++ ((l.addAll requests).2.addAll requests').1,
        ((l.addAll requests).2.addAll requests').2) := by
  induction requests generalizing l with
  | nil => rfl
  | cons r rest ih =>
    rw [List.cons_append, addAll_cons, ih, addAll_cons, List.cons_append]

/-- What holds of a library and is kept by every addition holds after any requests. -/
theorem addAll_induction {P : Library → Prop} (h : P l)
    (hstep : ∀ l title g role, P l → P (l.add title g role).2) (requests : List Request) :
    P (l.addAll requests).2 := by
  induction requests generalizing l with
  | nil => exact h
  | cons r rest ih => exact ih (hstep l r.title r.graph r.role h)

/-- After any requests the registry is well-formed. -/
theorem after_wellFormed (requests : List Request) : (after requests).registry.WellFormed :=
  addAll_induction (P := fun l => l.registry.WellFormed) .empty
    (fun _ title g role h => (add_addition h title g role).wellFormed h) requests

end Library

/-! ## Variables of nodes -/

section
open Candela.Graph (Input Kernel Link)

variable {P : String → Prop} {Q : Block → Prop} {p : Progress}

/-- All variables that a walk has given to nodes are of some kind. -/
def Progress.Variables (P : String → Prop) (p : Progress) : Prop :=
  ∀ name v, p.identifiers.get? name = some v → P v

variable (hfresh : ∀ taken name, P (Text.fresh taken ("n_" ++ Text.snake name) "_"))
include hfresh

/-- Asking for the variable of a node. -/
theorem identifierOf_variables (h : p.Variables P) (name : String) :
    Meets (identifierOf name) p (fun _ q => q.Variables P) fun _ _ => True := by
  unfold identifierOf
  refine .get_bind ?_
  split
  · exact .pure h
  · refine .set_bind (.pure fun a v hget => ?_)
    rw [Keyed.get?_insert] at hget
    split at hget
    · cases hget
      exact hfresh p.identifiers.values name
    · exact h a v hget

omit hfresh in
/-- Giving a slot to a texture. -/
theorem invoked_variables (h : p.Variables P) (k : Kernel) :
    Meets (invoked k) p (fun _ q => q.Variables P) fun _ _ => True := by
  unfold invoked
  refine .get_bind ?_
  split
  · exact .throw trivial
  · exact .set_bind (.pure h)

/-- Reading from a node. -/
theorem linkExpression_variables (h : p.Variables P) (link : Link) (target : FieldKind) :
    Meets (linkExpression g link target) p (fun _ q => q.Variables P) fun _ _ => True := by
  unfold linkExpression
  split
  · exact .pure h
  · exact .bind (identifierOf_variables hfresh h link.node) fun _ _ hq => .pure hq

/-- Putting an input of a node into its invocation. -/
theorem assignInput_variables {emit : String → Walk Unit} (h : p.Variables P)
    (hemit : ∀ name p, p.Variables P →
      Meets (emit name) p (fun _ q => q.Variables P) fun _ _ => True)
    (defaults : List (String × Context)) (i : Invocation Expression) (input : String × Input) :
    Meets (assignInput emit g name defaults i input) p (fun _ q => q.Variables P)
      fun _ _ => True := by
  unfold assignInput
  split
  · exact .throw trivial
  split
  · exact .pure h
  · next link _ _ =>
    exact .bind (hemit link.node p h) fun _ q hq =>
      .bind (linkExpression_variables hfresh hq link _) fun _ _ hs => .pure hs
  · split
    · exact .pure h
    · split <;> exact .pure h

/-- Walking a node. -/
theorem emitNode_variables (depth : Nat) (name : String) (p : Progress) (h : p.Variables P) :
    Meets (emitNode g depth name) p (fun _ q => q.Variables P) fun _ _ => True := by
  induction depth generalizing name p with
  | zero => exact .throw trivial
  | succ depth ih =>
    unfold emitNode
    refine .get_bind ?_
    split
    · exact .pure h
    · exact .throw trivial
    refine .update_bind ?_
    have hmarked : (p.marked name .pending).Variables P := h
    split
    · exact .throw trivial
    next node _ =>
    refine .bind (invoked_variables hmarked node.kernel) fun i q hq => ?_
    refine .bind (.foldlM (fun _ _ s => s.Variables P) hq fun _ input i s _ hs =>
      assignInput_variables hfresh hs ih _ i input) fun i s hs => ?_
    exact .bind (identifierOf_variables hfresh hs name) fun _ t ht => .update_bind (.update ht)

/-- Compiling a graph. -/
theorem emitGraph_variables (registry : Texture.Registry) (g : Graph) (role : Role) :
    Meets (emitGraph g role) (.start registry) (fun _ q => q.Variables P) fun _ _ => True := by
  have hstart : (Progress.start registry).Variables P := fun _ _ h => nomatch h
  unfold emitGraph
  split
  · exact .pure hstart
  · exact emitNode_variables hfresh _ _ _ hstart

namespace Library

variable (hcode : ∀ {g : Graph} {q : Progress} {b : Block} {node : Graph.Node}
  {signature : Signature} {slot : Nat}, CodeOf g q b node signature slot → q.Variables P → Q b)
include hcode

/-- The blocks of an added function are codes of nodes, with variables of the kind. -/
theorem add_blocks {l : Library} (h : l.registry.WellFormed) {title : String} {role : Role}
    {f : Function} (hf : f ∈ (l.add title g role).2.functions) :
    f ∈ l.functions ∨ ∀ b ∈ f.blocks, Q b := by
  have hmeets := emitGraph_meets h g role
  have hvariables := emitGraph_variables hfresh l.registry g role
  unfold add at hf
  cases hrun : (emitGraph g role).run (.start l.registry) with
  | error e q =>
    rw [hrun] at hf
    exact .inl hf
  | ok a q =>
    rw [hrun] at hf
    rcases List.mem_append.1 hf with hf | hf
    · exact .inl hf
    · rw [List.mem_singleton.1 hf]
      refine .inr fun b hb => ?_
      rcases hmeets.of_ok hrun with ⟨-, rfl⟩ | ⟨out, -, hvisited⟩
      · cases hb
      · obtain ⟨node, signature, slot, hnode⟩ := hvisited.sound.code b hb
        exact hcode hnode (hvariables.of_ok hrun)

/-- So are the blocks of all functions. -/
theorem after_blocks (requests : List Request) :
    ∀ f ∈ (after requests).functions, ∀ b ∈ f.blocks, Q b := by
  refine (addAll_induction (P := fun l => l.registry.WellFormed ∧
    ∀ f ∈ l.functions, ∀ b ∈ f.blocks, Q b) ⟨.empty, List.forall_mem_nil _⟩ ?_ requests).2
  rintro l title g role ⟨hwf, hblocks⟩
  refine ⟨(add_addition hwf title g role).wellFormed hwf, fun f hf => ?_⟩
  rcases add_blocks hfresh hcode hwf hf with hold | hnew
  · exact hblocks f hold
  · exact hnew

end Library

end

end Candela.Shader
