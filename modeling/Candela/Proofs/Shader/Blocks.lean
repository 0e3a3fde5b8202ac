import Candela.Proofs.Shader.Answers
import Candela.Proofs.Shader.Assignments

/-!
# The blocks of a function

The function of a graph has one block for each node that the chosen output reaches, no two of which
share a variable, and a block only reads variables of blocks above it (`Function.Complete`). Every
function that is added is complete (`add_appends_complete`).
-/

namespace Candela.Shader

variable {g : Graph} {initial : Texture.Registry} {out field v : String} {q : Progress}
  {role : Role} {before after : List Block} {b : Block} {e : Expression}

/-- The nodes of a function, in the order of their blocks. -/
def Function.nodes (f : Function) : List String := f.blocks.map Block.node

/-- The variables of a function, in the order of their blocks. -/
def Function.variableNames (f : Function) : List String := f.blocks.map Block.identifier

/-- A function has what is needed of a graph, once, and in an order in which it can be computed. -/
structure Function.Complete (f : Function) (g : Graph) : Prop where
  /-- Its nodes are those that the chosen output reaches. -/
  reached : ∀ name, name ∈ f.nodes ↔ ∃ out, g.IsFirst f.role.accepts out ∧ g.Reaches out name
  /-- No node has two blocks. -/
  once : f.nodes.Nodup
  /-- A block invokes the kernel of its node. -/
  kernel : ∀ b ∈ f.blocks, ∃ node, g.get? b.node = some node ∧
    node.kernel.signature? = some b.invocation.signature
  /-- No two blocks share a variable. -/
  distinct : f.variableNames.Nodup
  /-- What a block reads has been computed by a block above it. -/
  ordered : ∀ before b after, f.blocks = before ++ b :: after →
    ∀ field e, b.invocation.assignments.get? field = some e →
      ∀ v ∈ e.reads, v ∈ before.map Block.identifier

/-! ## Blocks of a walk -/

/-- A node that a block reads from has its block above, whose variable is read. -/
theorem Progress.Sound.exists_before_of_reads {source : String} (h : q.Sound g initial out)
    (hsplit : q.blocks = before ++ b :: after) (hreads : g.Reads b.node source) :
    ∃ b' ∈ before, b' ∈ q.blocks ∧ b'.node = source ∧ q.naming source = b'.identifier := by
  obtain ⟨b', hb', rfl⟩ := List.mem_map.1 (h.ordered before b after hsplit source hreads)
  have hmem : b' ∈ q.blocks := by
    rw [hsplit]
    exact List.mem_append_left _ hb'
  obtain ⟨node, signature, slot, hcode⟩ := h.code b' hmem
  refine ⟨b', hb', hmem, rfl, ?_⟩
  rw [Progress.naming, hcode.identifier, Option.getD_some]

/-- Blocks have variables of their own. -/
theorem Progress.Sound.nodup_identifiers (h : q.Sound g initial out) :
    (q.blocks.map Block.identifier).Nodup := by
  refine List.Nodup.map_on (fun b hb b' hb' heq => ?_) (List.Nodup.of_map _ h.nodup)
  obtain ⟨node, signature, slot, hcode⟩ := h.code b hb
  obtain ⟨node', signature', slot', hcode'⟩ := h.code b' hb'
  have hnode : b.node = b'.node :=
    h.distinct _ _ _ hcode.identifier (heq ▸ hcode'.identifier)
  exact List.inj_on_of_nodup_map h.nodup hb hb' hnode

/-- A block reads variables of blocks above it. -/
theorem Progress.Sound.reads_before (h : q.Sound g initial out)
    (hsplit : q.blocks = before ++ b :: after)
    (hassigned : b.invocation.assignments.get? field = some e) (hv : v ∈ e.reads) :
    v ∈ before.map Block.identifier := by
  have hb : b ∈ q.blocks := by
    rw [hsplit]
    exact List.mem_append_right _ List.mem_cons_self
  obtain ⟨node, signature, slot, hcode⟩ := h.code b hb
  rw [hcode.invocation] at hassigned
  obtain ⟨source, hreads, rfl⟩ :=
    (assigned_of_get? hassigned).reads hcode.get hcode.kernel hv
  obtain ⟨b', hb', -, -, hnaming⟩ := h.exists_before_of_reads hsplit hreads
  rw [hnaming]
  exact List.mem_map_of_mem hb'

/-- The blocks of a walked output make a complete function. -/
theorem Visited.complete (h : Visited g initial out (.start initial) out q)
    (hchosen : chosenOutput? g role = some out) (title name : String) :
    (Function.mk role title name q.blocks).Complete g where
  reached name := by
    have hfirst := chosenOutput?_eq_some_iff.1 hchosen
    refine h.mem_written_iff.trans ⟨fun hreach => ⟨out, hfirst, hreach⟩, fun hreach => ?_⟩
    obtain ⟨out', hfirst', hreach⟩ := hreach
    rwa [hfirst.eq hfirst']
  once := h.sound.nodup
  kernel b hb := by
    obtain ⟨node, signature, slot, hcode⟩ := h.sound.code b hb
    refine ⟨node, hcode.get, ?_⟩
    rw [hcode.invocation, signature_nodeInvocation, hcode.kernel]
  distinct := h.sound.nodup_identifiers
  ordered before b after hsplit field e hassigned v hv :=
    h.sound.reads_before hsplit hassigned hv

/-- Without an output the empty function is complete. -/
theorem complete_of_no_output (hchosen : chosenOutput? g role = none) (title name : String) :
    (Function.mk role title name []).Complete g where
  reached name := by
    refine iff_of_false (fun hmem => nomatch hmem) fun hreach => ?_
    obtain ⟨out, hfirst, -⟩ := hreach
    obtain ⟨node, hget, haccepted⟩ := hfirst.holds
    exact chosenOutput?_eq_none_iff.1 hchosen out node hget haccepted
  once := List.nodup_nil
  kernel b hb := nomatch hb
  distinct := List.nodup_nil
  ordered before b after hsplit := by
    have := congrArg List.length hsplit
    simp at this

/-! ## Main result -/

namespace Library

/-- The text of a library grows by the text of the function that is added. -/
theorem body_withFunction (l : Library) (title : String) (role : Role)
    (registry : Texture.Registry) (blocks : List Block) :
    (l.withFunction title role registry blocks).body =
      l.body ++ Function.text ⟨role, title, l.freshName title, blocks⟩ := by
  simp [body, withFunction, String.join_append]

/-- A graph that is added to a library gets one function, which is complete; the text grows by its
heading, the code of its blocks one after another, and its end. -/
theorem add_appends_complete (requests : List Request) (title : String) (g : Graph) (role : Role)
    (i : Nat) (h : ((Library.after requests).add title g role).1 = .ok i) :
    ∃ f : Function, f.role = role ∧ f.title = title ∧ f.Complete g ∧
      ((Library.after requests).add title g role).2.functions =
        (Library.after requests).functions ++ [f] ∧
      ((Library.after requests).add title g role).2.body =
        (Library.after requests).body ++
          ("// " ++ role.name ++ ": " ++ title ++ "\nfn " ++ f.name ++
            "(shading: ptr<function, ShadingContext>) \x7b" ++
            String.join (f.blocks.map fun b => b.invocation.render Expression.text b.identifier) ++
            "\x7d\n\n") := by
  have haddition := add_addition (after_wellFormed requests) title g role
  cases hout : (Library.after requests).add title g role with
  | mk answer l' =>
    rw [hout] at h haddition
    cases h
    obtain ⟨-, registry, blocks, rfl, hblocks⟩ := haddition.of_ok
    refine ⟨⟨role, title, (Library.after requests).freshName title, blocks⟩, rfl, rfl, ?_, rfl,
      body_withFunction _ _ _ _ _⟩
    rcases hblocks with ⟨hchosen, -, rfl⟩ | ⟨out, q, hchosen, -, rfl, hvisited⟩
    · exact complete_of_no_output hchosen _ _
    · exact hvisited.complete hchosen _ _

/-- The blocks of a material whose nodes have similar names. -/
theorem complete_braid :
    ((Library.after []).add "Braid" braid .surface).1 = .ok 0 ∧
      ∃ f : Function, f.Complete braid ∧
        ((Library.after []).add "Braid" braid .surface).2.functions = [f] ∧
        f.variableNames = ["n_image", "n_bsdf_001", "n_bsdf_001_2", "n_mix", "n_output"] := by
  have hnames : ((Library.after []).add "Braid" braid .surface).2.functions.map
      Function.variableNames =
        [["n_image", "n_bsdf_001", "n_bsdf_001_2", "n_mix", "n_output"]] := by decide +kernel
  obtain ⟨f, -, -, hcomplete, hfunctions, -⟩ :=
    add_appends_complete [] "Braid" braid .surface 0 add_braid
  rw [hfunctions] at hnames
  exact ⟨add_braid, f, hcomplete, hfunctions, List.singleton_inj.1 hnames⟩

end Library

end Candela.Shader
