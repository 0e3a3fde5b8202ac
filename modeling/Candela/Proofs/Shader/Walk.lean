import Candela.Proofs.Shader.Code
import Candela.Proofs.Shader.Outcome
import Candela.Proofs.Text.Names

/-!
# What a walk has done

`Progress.Sound` says what holds between any two steps of a walk: the marks agree with the blocks
that have been written, no node is written twice, no two nodes share a variable, every block is the
code of its node and stands behind those it reads from, and only reached nodes have been met.
`Progress.Grows` says what a step keeps of what was done before.

`emitNode_meets` is the one induction over the walk. It says how the walk of a node ends: with the
block of the node, or with an error that names a defect. That a node is never met again above itself
unless it lies on a cycle is carried by its hypothesis on the nodes whose inputs are being walked.
-/

namespace Candela.Shader

open Candela.Graph (Node Input Link Kernel)

variable {g : Graph} {initial : Texture.Registry} {out name : String} {p q s : Progress}

/-- The variable of a node, as far as it has been given one. -/
def Progress.naming (p : Progress) (name : String) : String := (p.identifiers.get? name).getD ""

/-- The nodes whose blocks have been written. -/
def Progress.written (p : Progress) : List String := p.blocks.map Block.node

/-- A block is the code of its node. -/
structure CodeOf (g : Graph) (p : Progress) (b : Block) (node : Node) (signature : Signature)
    (slot : Nat) : Prop where
  get : g.get? b.node = some node
  kernel : node.kernel.signature? = some signature
  /-- The texture of the node has the slot. -/
  texture : ∀ source, textureOf? node.kernel = some source →
    p.registry.slots.get? source.key = some slot
  single : ∀ input ∈ node.inputs.entries, input.2.links.length ≤ 1
  identifier : p.identifiers.get? b.node = some b.identifier
  /-- The nodes it reads from have been given variables. -/
  named : ∀ source, g.Reads b.node source → ∃ v, p.identifiers.get? source = some v
  invocation : b.invocation = nodeInvocation g p.naming b.node node signature slot

/-- What holds between the steps of a walk from some output that started with some textures. -/
structure Progress.Sound (g : Graph) (initial : Texture.Registry) (out : String) (p : Progress) :
    Prop where
  registry : p.registry.WellFormed
  /-- Textures are only added. -/
  added : initial.Extends p.registry
  /-- Textures that have been added are sampled by reached nodes. -/
  sampled : ∀ source ∈ p.registry.sources, source ∈ initial.sources ∨
    ∃ name, g.Reaches out name ∧ g.Samples name source
  /-- Only reached nodes have been met. -/
  reached : ∀ name, p.marks.get? name ≠ none → g.Reaches out name
  emitted_iff : ∀ name, p.marks.get? name = some .emitted ↔ name ∈ p.written
  nodup : p.written.Nodup
  /-- No two nodes share a variable. -/
  distinct : ∀ a b v, p.identifiers.get? a = some v → p.identifiers.get? b = some v → a = b
  code : ∀ b ∈ p.blocks, ∃ node signature slot, CodeOf g p b node signature slot
  /-- A block stands behind those it reads from. -/
  ordered : ∀ before b after, p.blocks = before ++ b :: after →
    ∀ source, g.Reads b.node source → source ∈ before.map Block.node

/-- Nodes that have been met stay so. -/
def Progress.MarksGrow (p q : Progress) : Prop :=
  ∀ name, p.marks.get? name ≠ none → q.marks.get? name ≠ none

/-- What a step keeps of what was done before. -/
structure Progress.Grows (p q : Progress) : Prop where
  registry : p.registry.Extends q.registry
  marks : p.MarksGrow q
  identifiers : ∀ name v, p.identifiers.get? name = some v → q.identifiers.get? name = some v
  blocks : p.blocks <+: q.blocks

theorem Progress.MarksGrow.refl (p : Progress) : p.MarksGrow p := fun _ h => h

theorem Progress.MarksGrow.trans (h : p.MarksGrow q) (h' : q.MarksGrow s) : p.MarksGrow s :=
  fun name hname => h' name (h name hname)

theorem Progress.Grows.refl (p : Progress) : p.Grows p :=
  ⟨.refl _, .refl p, fun _ _ h => h, List.prefix_refl _⟩

theorem Progress.Grows.trans (h : p.Grows q) (h' : q.Grows s) : p.Grows s where
  registry := h.registry.trans h'.registry
  marks := h.marks.trans h'.marks
  identifiers name v hv := h'.identifiers name v (h.identifiers name v hv)
  blocks := h.blocks.trans h'.blocks

/-- A node that has been written stays so. -/
theorem Progress.Grows.written (h : p.Grows q) (hmem : name ∈ p.written) : name ∈ q.written :=
  (h.blocks.map Block.node).subset hmem

/-- A variable that has been given stays. -/
theorem Progress.Grows.naming {v : String} (h : p.Grows q)
    (hv : p.identifiers.get? name = some v) : p.naming name = q.naming name := by
  rw [Progress.naming, Progress.naming, hv, h.identifiers name v hv]

/-- A block stays the code of its node. -/
theorem CodeOf.mono {b : Block} {node : Node} {signature : Signature} {slot : Nat}
    (h : CodeOf g p b node signature slot) (hgrows : p.Grows q) (hp : p.registry.WellFormed)
    (hq : q.registry.WellFormed) : CodeOf g q b node signature slot where
  get := h.get
  kernel := h.kernel
  texture source hsource := hp.get?_of_extends hq hgrows.registry (h.texture source hsource)
  single := h.single
  identifier := hgrows.identifiers _ _ h.identifier
  named source hreads := by
    obtain ⟨v, hv⟩ := h.named source hreads
    exact ⟨v, hgrows.identifiers _ _ hv⟩
  invocation := by
    rw [h.invocation]
    refine nodeInvocation_congr h.get h.kernel fun source hreads => ?_
    obtain ⟨v, hv⟩ := h.named source hreads
    exact hgrows.naming hv

namespace Progress.Sound

/-- Nothing has been done. -/
theorem start (h : initial.WellFormed) : (Progress.start initial).Sound g initial out where
  registry := h
  added := .refl _
  sampled source hsource := .inl hsource
  reached name hname := absurd rfl hname
  emitted_iff name := by simp [Progress.start, Progress.written]
  nodup := List.nodup_nil
  distinct a b v ha := by simp [Progress.start] at ha
  code b hb := nomatch hb
  ordered before b after h := by simp [Progress.start] at h

/-- A node that has been written has a variable. -/
theorem named (h : p.Sound g initial out) (hmem : name ∈ p.written) :
    ∃ v, p.identifiers.get? name = some v := by
  obtain ⟨b, hb, rfl⟩ := List.mem_map.1 hmem
  obtain ⟨node, signature, slot, hcode⟩ := h.code b hb
  exact ⟨_, hcode.identifier⟩

/-- Blocks stay the code of their nodes. -/
theorem code_of_grows (h : p.Sound g initial out) (hgrows : p.Grows q)
    (hq : q.registry.WellFormed) :
    ∀ b ∈ p.blocks, ∃ node signature slot, CodeOf g q b node signature slot := by
  intro b hb
  obtain ⟨node, signature, slot, hcode⟩ := h.code b hb
  exact ⟨node, signature, slot, hcode.mono hgrows h.registry hq⟩

end Progress.Sound

/-- How a walk fails: something is amiss with the graph, and textures have only been added. -/
structure Rejected (g : Graph) (initial : Texture.Registry) (out : String) (e : Error)
    (q : Progress) : Prop where
  defect : Defect g initial out e
  registry : q.registry.WellFormed
  added : initial.Extends q.registry

/-- A state between two steps becomes the state of a failure. -/
theorem Progress.Sound.rejected {e : Error} (h : p.Sound g initial out)
    (hdefect : Defect g initial out e) : Rejected g initial out e p :=
  ⟨hdefect, h.registry, h.added⟩

/-! ## Variables -/

/-- Asking for the variable of a node. -/
theorem identifierOf_meets {bad : Error → Progress → Prop} (h : p.Sound g initial out)
    (name : String) :
    Meets (identifierOf name) p (fun v q => q.Sound g initial out ∧ p.Grows q ∧
      q.marks = p.marks ∧ q.blocks = p.blocks ∧ q.identifiers.get? name = some v) bad := by
  unfold identifierOf
  refine .get_bind ?_
  split
  · next v hknown => exact .pure ⟨h, .refl p, rfl, rfl, hknown⟩
  · next hnew =>
    let identifier := Text.fresh p.identifiers.values ("n_" ++ Text.snake name) "_"
    let q : Progress := { p with identifiers := p.identifiers.insert name identifier }
    have hget : ∀ a, q.identifiers.get? a =
        if a = name then some identifier else p.identifiers.get? a :=
      fun a => Keyed.get?_insert p.identifiers name a identifier
    have hfree : ∀ a, p.identifiers.get? a ≠ some identifier := fun a ha =>
      Text.fresh_notMem _ _ _ (Keyed.mem_values_iff.2 ⟨a, ha⟩)
    have hgrows : p.Grows q := by
      refine ⟨.refl _, fun _ hname => hname, fun a v ha => ?_, List.prefix_refl _⟩
      rw [hget, if_neg, ha]
      rintro rfl
      rw [hnew] at ha
      cases ha
    have hsound : q.Sound g initial out := by
      refine { h with
        distinct := fun a b v ha hb => ?_, code := h.code_of_grows hgrows h.registry }
      rw [hget] at ha hb
      split at ha <;> split at hb
      · next ha' hb' => rw [ha', hb']
      · cases ha
        exact absurd hb (hfree b)
      · cases hb
        exact absurd ha (hfree a)
      · exact h.distinct a b v ha hb
    exact .set_bind (.pure ⟨hsound, hgrows, rfl, rfl, by rw [hget, if_pos rfl]⟩)

/-- Reading from a node that has been written. -/
theorem linkExpression_meets {bad : Error → Progress → Prop} (h : p.Sound g initial out)
    (link : Link) (target : FieldKind) :
    Meets (linkExpression g link target) p (fun e q => q.Sound g initial out ∧ p.Grows q ∧
      q.marks = p.marks ∧ q.blocks = p.blocks ∧ e = readExpression g q.naming link target) bad := by
  unfold linkExpression
  split
  · next hsource => exact .pure ⟨h, .refl p, rfl, rfl, by rw [readExpression, hsource]⟩
  · next socket hsource =>
    refine .bind (identifierOf_meets h link.node) fun v q hq => ?_
    obtain ⟨hsound, hgrows, hmarks, hblocks, hv⟩ := hq
    refine .pure ⟨hsound, hgrows, hmarks, hblocks, ?_⟩
    rw [readExpression, hsource, Progress.naming, hv, Option.getD_some]

/-! ## Textures -/

/-- The invocation of a node is that of its type with the slot of its texture. -/
theorem invoke_ok {k : Kernel} {r r' : Texture.Registry} {i : Invocation Expression}
    (hr : r.WellFormed) (h : invoke k r = .ok (i, r')) :
    ∃ signature slot, k.signature? = some signature ∧ i = invocationOf k signature slot ∧
      r'.WellFormed ∧ r.Extends r' ∧
      (∀ source, textureOf? k = some source → r'.slots.get? source.key = some slot) ∧
      ∀ source ∈ r'.sources, source ∈ r.sources ∨ textureOf? k = some source := by
  unfold invoke at h
  split at h
  · cases h
  · next signature hsignature =>
    split at h
    · next hnone =>
      cases h
      refine ⟨signature, 0, hsignature, rfl, hr, .refl r, fun source hsource => ?_,
        fun source hsource => .inl hsource⟩
      rw [hnone] at hsource
      cases hsource
    · next source hsource =>
      split at h
      · cases h
      · next slot r' hregister =>
        cases h
        obtain ⟨hwf, hext, hslot, honly⟩ := hr.register_ok hregister
        refine ⟨signature, slot, hsignature, rfl, hwf, hext, fun source' hsource' => ?_,
          fun source' hsource' => ?_⟩
        · rw [hsource] at hsource'
          cases hsource'
          exact hslot
        · rcases honly source' hsource' with hold | rfl
          · exact .inl hold
          · exact .inr hsource

/-- A node has no invocation because it has no kernel, or because its texture is new and all slots
are in use. -/
theorem invoke_error {k : Kernel} {r : Texture.Registry} {e : Error}
    (h : invoke k r = .error e) :
    (k.signature? = none ∧ e = .unsupportedKernel (unsupportedTag k)) ∨
      ∃ signature source, k.signature? = some signature ∧ textureOf? k = some source ∧
        e = Texture.Registry.full ∧ r.slots.get? source.key = none ∧
        Texture.maxSlots ≤ r.size := by
  unfold invoke at h
  split at h
  · next hnone =>
    cases h
    exact .inl ⟨hnone, rfl⟩
  · next signature hsignature =>
    split at h
    · cases h
    · next source hsource =>
      split at h
      · next e' hregister =>
        cases h
        obtain ⟨hfull, hnew, hsize⟩ := Texture.Registry.register_error hregister
        exact .inr ⟨signature, source, hsignature, hsource, hfull, hnew, hsize⟩
      · cases h

/-- A texture that is needed, is new and finds all slots in use is one too many. -/
theorem Progress.Sound.lt_encard_neededKeys {source : Texture.Source}
    (h : p.Sound g initial out) (hreach : g.Reaches out name) (hsamples : g.Samples name source)
    (hnew : p.registry.slots.get? source.key = none)
    (hsize : Texture.maxSlots ≤ p.registry.size) : 16 < (neededKeys g initial out).encard := by
  let needed : List String := source.key :: p.registry.keys
  have hnodup : needed.Nodup :=
    List.nodup_cons.2 ⟨h.registry.notMem_keys hnew, h.registry.nodup_keys⟩
  have hsub : (needed.toFinset : Set String) ⊆ neededKeys g initial out := by
    intro key hkey
    rcases List.mem_cons.1 (List.mem_toFinset.1 hkey) with rfl | hkey
    · exact .inr ⟨name, source, hreach, hsamples, rfl⟩
    · obtain ⟨source', hsource', rfl⟩ := List.mem_map.1 hkey
      rcases h.sampled source' hsource' with hold | ⟨name', hreach', hsamples'⟩
      · exact .inl (List.mem_map_of_mem hold)
      · exact .inr ⟨name', source', hreach', hsamples', rfl⟩
  have hcard : (needed.toFinset : Set String).encard = p.registry.size + 1 := by
    rw [Set.encard_coe_eq_coe_finsetCard, List.toFinset_card_of_nodup hnodup, List.length_cons,
      Texture.Registry.length_keys]
    rfl
  have hlt : (16 : ℕ∞) < p.registry.size + 1 := by
    have : 16 < p.registry.size + 1 := Nat.lt_succ_of_le hsize
    exact_mod_cast this
  exact lt_of_lt_of_le hlt (hcard ▸ Set.encard_le_encard hsub)

/-- Giving a slot to the texture of a reached node. -/
theorem invoked_meets {node : Node} (h : p.Sound g initial out) (hreach : g.Reaches out name)
    (hget : g.get? name = some node) :
    Meets (invoked node.kernel) p (fun i q => q.Sound g initial out ∧ p.Grows q ∧
      q.marks = p.marks ∧ ∃ signature slot, node.kernel.signature? = some signature ∧
        i = invocationOf node.kernel signature slot ∧
        ∀ source, textureOf? node.kernel = some source →
          q.registry.slots.get? source.key = some slot)
      (Rejected g initial out) := by
  unfold invoked
  refine .get_bind ?_
  split
  · next e herror =>
    refine .throw (h.rejected ?_)
    rcases invoke_error herror with ⟨hnone, rfl⟩ | ⟨signature, source, hsignature, hsource, rfl,
      hnew, hsize⟩
    · exact .unsupported hreach hget (capability_eq_unsupported_iff.2 hnone)
    · exact .textures (h.lt_encard_neededKeys hreach ⟨node, signature, hget, hsignature, hsource⟩
        hnew hsize)
  · next i registry hok =>
    obtain ⟨signature, slot, hsignature, hi, hwf, hext, hslot, honly⟩ := invoke_ok h.registry hok
    let q : Progress := { p with registry := registry }
    have hgrows : p.Grows q := ⟨hext, fun _ hname => hname, fun _ _ hv => hv, List.prefix_refl _⟩
    have hsound : q.Sound g initial out :=
      { h with
        registry := hwf
        added := h.added.trans hext
        sampled := fun source hsource => (honly source hsource).elim (h.sampled source)
          fun hsource => .inr ⟨name, hreach, node, signature, hget, hsignature, hsource⟩
        code := h.code_of_grows hgrows hwf }
    exact .set_bind (.pure ⟨hsound, hgrows, rfl, signature, slot, hsignature, hi, hslot⟩)

/-! ## Inputs -/

/-- What holds when a node has been walked. -/
structure Visited (g : Graph) (initial : Texture.Registry) (out : String) (p : Progress)
    (name : String) (q : Progress) : Prop where
  sound : q.Sound g initial out
  grows : p.Grows q
  /-- The nodes whose inputs are being walked are still the same. -/
  pending : ∀ a, q.marks.get? a = some .pending ↔ p.marks.get? a = some .pending
  written : name ∈ q.written

/-- What holds when some inputs of a node have been walked, `p` having been done before. -/
structure Passed (g : Graph) (initial : Texture.Registry) (out : String) (p : Progress)
    (name : String) (k : Kernel) (signature : Signature) (slot : Nat)
    (passed : List (String × Input)) (i : Invocation Expression) (q : Progress) : Prop where
  sound : q.Sound g initial out
  grows : p.Grows q
  pending : ∀ a, q.marks.get? a = some .pending ↔ p.marks.get? a = some .pending
  invocation : i = inputInvocation g q.naming name k signature slot passed
  single : ∀ input ∈ passed, input.2.links.length ≤ 1
  written : ∀ input ∈ passed, ∀ link, (signature.input? input.1).isSome →
    input.2.links.head? = some link → link.node ∈ q.written

/-- What has been read into an invocation stays the same. -/
theorem Passed.invocation_of_grows {k : Kernel} {signature : Signature} {slot : Nat}
    {passed : List (String × Input)} {i : Invocation Expression}
    (h : Passed g initial out p name k signature slot passed i q) (hgrows : q.Grows s) :
    i = inputInvocation g s.naming name k signature slot passed := by
  rw [h.invocation]
  refine inputInvocation_congr fun input hinput link hused hlink => ?_
  obtain ⟨v, hv⟩ := h.sound.named (h.written input hinput link hused hlink)
  exact hgrows.naming hv

/-- One more input has been walked, and what it assigns has been assigned. -/
theorem Passed.snoc {k : Kernel} {signature : Signature} {slot : Nat}
    {passed : List (String × Input)} {i i' : Invocation Expression} {input : String × Input}
    (h : Passed g initial out p name k signature slot passed i q) (hsound : s.Sound g initial out)
    (hgrows : q.Grows s)
    (hpending : ∀ a, s.marks.get? a = some .pending ↔ q.marks.get? a = some .pending)
    (hsingle : input.2.links.length ≤ 1)
    (hwritten : ∀ link, (signature.input? input.1).isSome → input.2.links.head? = some link →
      link.node ∈ s.written)
    (hi : i' = i.assignAll (inputAssignment? g s.naming signature input).toList) :
    Passed g initial out p name k signature slot (passed ++ [input]) i' s where
  sound := hsound
  grows := h.grows.trans hgrows
  pending a := (hpending a).trans (h.pending a)
  invocation := by
    rw [hi, h.invocation_of_grows hgrows, inputInvocation, inputInvocation,
      List.filterMap_append, Invocation.assignAll_append]
    cases hone : inputAssignment? g s.naming signature input <;> simp [hone]
  single := by
    intro input' hmem
    rcases List.mem_append.1 hmem with hmem | hmem
    · exact h.single input' hmem
    · rw [List.mem_singleton.1 hmem]
      exact hsingle
  written := by
    intro input' hmem link hused hlink
    rcases List.mem_append.1 hmem with hmem | hmem
    · exact hgrows.written (h.written input' hmem link hused hlink)
    · rw [List.mem_singleton.1 hmem] at hused hlink
      exact hwritten link hused hlink

/-- Walking one more input, when the nodes it reads from can be walked. -/
theorem assignInput_meets {emit : String → Walk Unit} {node : Node} {signature : Signature}
    {slot : Nat} {passed : List (String × Input)} {i : Invocation Expression}
    {input : String × Input} (hreach : g.Reaches out name) (hget : g.get? name = some node)
    (hkernel : node.kernel.signature? = some signature) (hinput : input ∈ node.inputs.entries)
    (hemit : ∀ source, g.Reads name source → Meets (emit source) q
      (fun _ s => Visited g initial out q source s) (Rejected g initial out))
    (h : Passed g initial out p name node.kernel signature slot passed i q) :
    Meets (assignInput emit g name (contextDefaults signature.name) i input) q
      (Passed g initial out p name node.kernel signature slot (passed ++ [input]))
      (Rejected g initial out) := by
  have hsignature : i.signature = signature := by
    rw [h.invocation, inputInvocation, Invocation.signature_assignAll,
      Invocation.signature_comment, signature_invocationOf]
  unfold assignInput
  rw [hsignature]
  split
  · next hlinks => exact .throw (h.sound.rejected (.links hreach hget hinput hlinks))
  next hlinks =>
  have hsingle : input.2.links.length ≤ 1 := Nat.le_of_not_lt hlinks
  split
  · next hunused =>
    refine .pure (h.snoc h.sound (.refl q) (fun _ => Iff.rfl) hsingle ?_ ?_)
    · intro link hused
      simp [hunused] at hused
    · rw [inputAssignment?, hunused]
      rfl
  · next socket link hsocket hlink =>
    have hreads : g.Reads name link.node :=
      ⟨node, signature, hget, hkernel, input, hinput, by simp [hsocket], link, hlink, rfl⟩
    refine .bind (hemit link.node hreads) fun _ s hs => ?_
    refine .bind (linkExpression_meets hs.sound link socket.kind) fun e s' hs' => ?_
    obtain ⟨hsound, hgrows, hmarks, hblocks, he⟩ := hs'
    refine .pure (h.snoc hsound (hs.grows.trans hgrows) (fun a => ?_) hsingle ?_ ?_)
    · rw [hmarks]
      exact hs.pending a
    · intro link' _ hlink'
      rw [hlink] at hlink'
      cases hlink'
      exact hgrows.written hs.written
    · rw [inputAssignment?, hsocket, hlink, he]
      rfl
  · next socket hsocket hlink =>
    -- without a link nothing is walked, and the state stays as it is
    have hunlinked : ∀ link, (signature.input? input.1).isSome → input.2.links.head? = some link →
        link.node ∈ q.written := by
      intro link _ hlink'
      rw [hlink] at hlink'
      cases hlink'
    split
    · next hdefault =>
      have hone : inputAssignment? g q.naming signature input = none := by
        rw [inputAssignment?, hsocket, hlink]
        exact if_pos hdefault
      refine .pure (h.snoc h.sound (.refl q) (fun _ => Iff.rfl) hsingle hunlinked ?_)
      rw [hone]
      rfl
    · next hdefault =>
      have hone : inputAssignment? g q.naming signature input =
          (input.2.value.bind (Expression.ofLiteral? · socket.kind)).map fun e =>
            (socket.field, e) := by
        rw [inputAssignment?, hsocket, hlink]
        exact if_neg hdefault
      split
      · next e he =>
        refine .pure (h.snoc h.sound (.refl q) (fun _ => Iff.rfl) hsingle hunlinked ?_)
        rw [hone, he]
        rfl
      · next he =>
        refine .pure (h.snoc h.sound (.refl q) (fun _ => Iff.rfl) hsingle hunlinked ?_)
        rw [hone, he]
        rfl

/-! ## Nodes -/

/-- The nodes of a graph that have not been met. -/
def unmet (g : Graph) (p : Progress) : List String :=
  g.nodes.keys.filter fun name => (p.marks.get? name).isNone

/-- What is left to meet was left to meet before. -/
theorem Progress.MarksGrow.unmet_eq (h : p.MarksGrow q) :
    unmet g q = (unmet g p).filter fun name => (q.marks.get? name).isNone := by
  rw [unmet, unmet, List.filter_filter]
  refine List.filter_congr fun name _ => ?_
  cases hq : q.marks.get? name with
  | some m => rfl
  | none =>
    have hp : p.marks.get? name = none := by
      by_contra hp
      exact h name hp hq
    simp [hp]

theorem Progress.MarksGrow.length_unmet_le (h : p.MarksGrow q) :
    (unmet g q).length ≤ (unmet g p).length := by
  rw [h.unmet_eq]
  exact List.length_filter_le _ _

/-- Meeting a node leaves fewer nodes to meet. -/
theorem Progress.MarksGrow.length_unmet_lt {node : Node} (h : p.MarksGrow q)
    (hget : g.get? name = some node) (hp : p.marks.get? name = none)
    (hq : q.marks.get? name ≠ none) : (unmet g q).length < (unmet g p).length := by
  rw [h.unmet_eq]
  refine List.length_filter_lt_length_iff_exists.2 ⟨name, List.mem_filter.2 ⟨?_, by simp [hp]⟩, ?_⟩
  · exact Keyed.mem_keys_of_get? hget
  · simpa using hq

/-- A state in which a node has been marked. -/
def Progress.marked (p : Progress) (name : String) (m : Mark) : Progress :=
  { p with marks := p.marks.insert name m }

theorem Progress.get?_marks_marked (p : Progress) (name a : String) (m : Mark) :
    (p.marked name m).marks.get? a = if a = name then some m else p.marks.get? a :=
  Keyed.get?_insert p.marks name a m

theorem Progress.marksGrow_marked (p : Progress) (name : String) (m : Mark) :
    p.MarksGrow (p.marked name m) := by
  intro a ha
  rw [get?_marks_marked]
  split
  · exact Option.some_ne_none m
  · exact ha

theorem Progress.grows_marked (p : Progress) (name : String) (m : Mark) :
    p.Grows (p.marked name m) :=
  ⟨.refl _, p.marksGrow_marked name m, fun _ _ hv => hv, List.prefix_refl _⟩

/-- Marking a node whose inputs are about to be walked. -/
theorem Progress.Sound.pending (h : p.Sound g initial out) (hreach : g.Reaches out name)
    (hnew : p.marks.get? name = none) : (p.marked name .pending).Sound g initial out := by
  refine { h with
    reached := fun a ha => ?_, emitted_iff := fun a => ?_,
    code := h.code_of_grows (p.grows_marked name .pending) h.registry }
  · rw [Progress.get?_marks_marked] at ha
    split at ha
    · next heq => exact heq ▸ hreach
    · exact h.reached a ha
  · have hwritten : (p.marked name .pending).written = p.written := rfl
    rw [Progress.get?_marks_marked, hwritten, ← h.emitted_iff]
    split
    · next heq =>
      subst heq
      simp [hnew]
    · rfl

/-- A state in which the block of a node has been written. -/
def Progress.finished (p : Progress) (b : Block) : Progress :=
  { p with blocks := p.blocks ++ [b] }.marked b.node .emitted

theorem Progress.written_finished (p : Progress) (b : Block) :
    (p.finished b).written = p.written ++ [b.node] := by
  simp [finished, marked, written]

theorem Progress.get?_marks_finished (p : Progress) (b : Block) (a : String) :
    (p.finished b).marks.get? a = if a = b.node then some .emitted else p.marks.get? a :=
  Progress.get?_marks_marked _ b.node a .emitted

theorem Progress.grows_finished (p : Progress) (b : Block) : p.Grows (p.finished b) := by
  have hblocks : p.Grows { p with blocks := p.blocks ++ [b] } :=
    ⟨.refl _, fun _ ha => ha, fun _ _ hv => hv, List.prefix_append _ _⟩
  exact hblocks.trans (Progress.grows_marked _ b.node .emitted)

/-- Writing the block of a node whose inputs have been walked. -/
theorem Progress.Sound.finished {b : Block} {node : Node} {signature : Signature} {slot : Nat}
    (h : p.Sound g initial out) (hreach : g.Reaches out b.node)
    (hpending : p.marks.get? b.node = some .pending) (hcode : CodeOf g p b node signature slot)
    (hreads : ∀ source, g.Reads b.node source → source ∈ p.written) :
    (p.finished b).Sound g initial out := by
  have hgrows := p.grows_finished b
  have hnew : b.node ∉ p.written := by
    rw [← h.emitted_iff, hpending]
    simp
  refine { h with
    reached := fun a ha => ?_, emitted_iff := fun a => ?_, nodup := ?_, code := fun b' hb' => ?_,
    ordered := fun before b' after hsplit source hsource => ?_ }
  · rw [Progress.get?_marks_finished] at ha
    split at ha
    · next heq => exact heq ▸ hreach
    · exact h.reached a ha
  · rw [Progress.get?_marks_finished, Progress.written_finished, List.mem_append,
      List.mem_singleton, ← h.emitted_iff]
    split
    · next heq => simp [heq]
    · next hne => simp [hne]
  · rw [Progress.written_finished]
    exact List.nodup_append.2 ⟨h.nodup, List.nodup_singleton _, fun a ha a' ha' heq => by
      rw [heq, List.mem_singleton.1 ha'] at ha
      exact hnew ha⟩
  · rcases List.mem_append.1 hb' with hb' | hb'
    · exact h.code_of_grows hgrows h.registry b' hb'
    · rw [List.mem_singleton.1 hb']
      exact ⟨node, signature, slot, hcode.mono hgrows h.registry h.registry⟩
  · -- the split is at the new block, or lies in what was there
    have hsplit : p.blocks ++ [b] = before ++ b' :: after := hsplit
    rcases List.eq_nil_or_concat after with rfl | ⟨after', last, rfl⟩
    · obtain ⟨rfl, hb'⟩ := List.append_inj' hsplit rfl
      cases hb'
      exact hreads source hsource
    · have hsplit : p.blocks ++ [b] = (before ++ b' :: after') ++ [last] := by
        rw [hsplit, List.concat_eq_append, List.append_assoc, List.cons_append]
      obtain ⟨hold, -⟩ := List.append_inj' hsplit rfl
      exact h.ordered before b' after' hold source hsource

/-- The code of a node whose inputs have been walked. -/
theorem Passed.codeOf {node : Node} {signature : Signature} {slot : Nat} {identifier : String}
    {i : Invocation Expression} (hget : g.get? name = some node)
    (hkernel : node.kernel.signature? = some signature)
    (hslot : ∀ source, textureOf? node.kernel = some source →
      p.registry.slots.get? source.key = some slot)
    (h : Passed g initial out p name node.kernel signature slot node.inputs.entries i q)
    (hp : p.registry.WellFormed) (hsound : s.Sound g initial out) (hgrows : q.Grows s)
    (hidentifier : s.identifiers.get? name = some identifier) :
    CodeOf g s ⟨name, identifier, assignDefaults (contextDefaults signature.name) i⟩ node signature
        slot ∧
      ∀ source, g.Reads name source → source ∈ s.written := by
  have hreads : ∀ source, g.Reads name source → source ∈ s.written := by
    rintro source ⟨node', signature', hget', hkernel', input, hinput, hused, link, hlink, rfl⟩
    cases hget.symm.trans hget'
    cases hkernel.symm.trans hkernel'
    exact hgrows.written (h.written input hinput link hused hlink)
  refine ⟨?_, hreads⟩
  exact
    { get := hget
      kernel := hkernel
      texture := fun source hsource =>
        hp.get?_of_extends hsound.registry (h.grows.trans hgrows).registry (hslot source hsource)
      single := h.single
      identifier := hidentifier
      named := fun source hsource => hsound.named (hreads source hsource)
      invocation := by rw [nodeInvocation, ← h.invocation_of_grows hgrows] }

/-- How the walk of a node ends. The nodes whose inputs are being walked read, in some number of
steps, from the node; and the bound on the depth is larger than the number of nodes left to meet. -/
theorem emitNode_meets (hout : g.get? out ≠ none) (depth : Nat) (name : String) (p : Progress)
    (h : p.Sound g initial out) (hreach : g.Reaches out name)
    (habove : ∀ a, p.marks.get? a = some .pending → Relation.TransGen g.Reads a name)
    (hdepth : (unmet g p).length < depth) :
    Meets (emitNode g depth name) p (fun _ q => Visited g initial out p name q)
      (Rejected g initial out) := by
  induction depth generalizing name p with
  | zero => cases hdepth
  | succ depth ih =>
    unfold emitNode
    refine .get_bind ?_
    split
    · next hemitted =>
      exact .pure ⟨h, .refl p, fun _ => Iff.rfl, (h.emitted_iff name).1 hemitted⟩
    · next hpending => exact .throw (h.rejected (.cycle hreach (habove name hpending)))
    next hnew =>
    refine .update_bind ?_
    show Meets _ (p.marked name .pending) _ _
    have hmarked := h.pending hreach hnew
    split
    · next hmissing =>
      rcases Graph.Reaches.eq_or_reads hreach with rfl | ⟨reader, hreader, hreads⟩
      · exact absurd hmissing hout
      · exact .throw (hmarked.rejected (.missing hreader hreads hmissing))
    next node hget =>
    refine .bind (invoked_meets hmarked hreach hget) fun i q hq => ?_
    obtain ⟨hsound, hgrows, hmarks, signature, slot, hkernel, rfl, hslot⟩ := hq
    have hgrows := (p.grows_marked name .pending).trans hgrows
    have hmarks : ∀ a, q.marks.get? a = if a = name then some .pending else p.marks.get? a :=
      fun a => by rw [hmarks, Progress.get?_marks_marked]
    have hmet : q.marks.get? name = some .pending := by rw [hmarks, if_pos rfl]
    have hless : (unmet g q).length < depth := by
      have hlt := hgrows.marks.length_unmet_lt hget hnew (hmet ▸ Option.some_ne_none _)
      omega
    simp only [Invocation.signature_comment, signature_invocationOf]
    -- the inputs, one after another; the node itself is now one of those above
    refine .bind (.foldlM (Passed g initial out q name node.kernel signature slot)
      ⟨hsound, .refl q, fun _ => Iff.rfl, rfl, fun _ h => (nomatch h), fun _ h => (nomatch h)⟩
      fun passed input i s hinput hs => ?_) fun i s hs => ?_
    · refine assignInput_meets hreach hget hkernel hinput (fun source hreads => ?_) hs
      refine ih source s hs.sound (hreach.tail hreads) (fun a ha => ?_)
        (Nat.lt_of_le_of_lt hs.grows.marks.length_unmet_le hless)
      rw [hs.pending, hmarks] at ha
      split at ha
      · next heq => exact .single (heq ▸ hreads)
      · exact (habove a ha).tail hreads
    · refine .bind (identifierOf_meets hs.sound name) fun identifier t ht => ?_
      obtain ⟨hsound', hgrows', hmarks', -, hidentifier⟩ := ht
      obtain ⟨hcode, hreads⟩ :=
        hs.codeOf hget hkernel hslot hsound.registry hsound' hgrows' hidentifier
      have hpending : ∀ a, t.marks.get? a = some .pending ↔ q.marks.get? a = some .pending :=
        fun a => by rw [hmarks', hs.pending]
      have hfinished := hsound'.finished hreach ((hpending name).2 hmet) hcode hreads
      refine .update_bind (.update ?_)
      show Visited g initial out p name (t.finished _)
      refine ⟨hfinished, ?_, fun a => ?_, by simp [Progress.written_finished]⟩
      · exact hgrows.trans (hs.grows.trans (hgrows'.trans (t.grows_finished _)))
      · rw [Progress.get?_marks_finished]
        split
        · next heq => simp [heq, hnew]
        · next hne => rw [hpending, hmarks, if_neg hne]

end Candela.Shader
