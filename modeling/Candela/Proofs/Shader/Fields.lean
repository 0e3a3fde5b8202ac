import Candela.Proofs.Shader.Precedence

/-!
# Fields of blocks

What the blocks of an added function assign to the fields of their variables, in terms of the links
and literals of the graph. `Block.AssignsOnce` says that a block assigns an expression to a field and
nothing else, in its invocation and in its text. Every block of an added function is the code of a
node (`Addition.exists_codeOf`), so what a field gets is what `Candela.Proofs.Shader.Precedence` says
of the node:

* a field with a link gets what is read through one, unless an input with a later name has a literal
  for it (`Library.add_reads_links`);
* a field for a vector of the point that is shaded gets what is read through its link, or else that
  vector, and never a literal (`Library.add_fills_contexts`).
-/

namespace Candela.Shader

open Candela.Graph (Node Input Link)

variable {g : Graph} {naming : String → String} {f : Function} {b : Block} {node : Node}
  {s : Signature} {slot : Nat} {field : String} {e : Expression}

/-! ## Assignments of a block -/

/-- A block assigns an expression to a field, and assigns nothing else to it. -/
structure Block.AssignsOnce (b : Block) (field : String) (e : Expression) : Prop where
  /-- Of its assignments only this one is to the field. -/
  once : (b.invocation.assignments.entries.filter fun a => a.1 = field) = [(field, e)]
  /-- Its text has the line of the assignment. -/
  written : Occurs (Invocation.assignmentText b.identifier field e.text) b.text

/-- The text of a block has a line for every assignment. -/
theorem Block.occurs_assignment (b : Block) (h : (field, e) ∈ b.invocation.assignments.entries) :
    Occurs (Invocation.assignmentText b.identifier field e.text) b.text := by
  have hline := occurs_join (List.mem_map_of_mem
    (f := fun a : String × Expression => Invocation.assignmentText b.identifier a.1 a.2.text) h)
  unfold Block.text Invocation.render
  -- the pieces of the call stand behind the assignments, the declaration before them
  iterate 5 refine .append_right ?_ _
  exact hline.append_left _

/-- What is found under a field is assigned to it once. -/
theorem Block.assignsOnce_of_get? (h : b.invocation.assignments.get? field = some e) :
    b.AssignsOnce field e where
  once := by
    rw [Keyed.filter_entries, h]
    rfl
  written := b.occurs_assignment (Keyed.get?_eq_some_iff.1 h)

/-- Nothing is assigned to a field under which nothing is found. -/
theorem Block.get?_eq_none_iff :
    b.invocation.assignments.get? field = none ↔
      ∀ a ∈ b.invocation.assignments.entries, a.1 ≠ field := by
  rw [Option.eq_none_iff_forall_ne_some]
  constructor
  · rintro h ⟨name, e⟩ ha rfl
    exact h e (Keyed.get?_eq_some_iff.2 ha)
  · intro h e he
    exact h _ (Keyed.get?_eq_some_iff.1 he) rfl

/-- What is assigned once is all that is assigned. -/
theorem Block.AssignsOnce.eq {e' : Expression} (h : b.AssignsOnce field e)
    (h' : b.AssignsOnce field e') : e = e' := by
  have heq := h.once.symm.trans h'.once
  cases heq
  rfl

/-! ## Blocks of a function -/

/-- A block of a function is the code of a node of a graph, which reads from nodes that have blocks
in the function. -/
structure Function.CodeOf (f : Function) (g : Graph) (naming : String → String) (b : Block)
    (node : Node) (s : Signature) (slot : Nat) : Prop where
  get : g.get? b.node = some node
  kernel : node.kernel.signature? = some s
  invocation : b.invocation = nodeInvocation g naming b.node node s slot
  reads : ∀ source, g.Reads b.node source → source ∈ f.nodes

namespace Function.CodeOf

variable {name : String} {socket : Socket} {link : Link}

/-- The kernel is in the catalogue. -/
theorem mem_catalogue (h : f.CodeOf g naming b node s slot) : s ∈ catalogue :=
  (mem_catalogue_of_signature? h.kernel).1

/-- The block invokes the kernel. -/
theorem signature (h : f.CodeOf g naming b node s slot) : b.invocation.signature = s := by
  rw [h.invocation, signature_nodeInvocation]

/-- What the node's invocation has for a field, the block assigns to it. -/
theorem assignsOnce (h : f.CodeOf g naming b node s slot)
    (hget : (nodeInvocation g naming b.node node s slot).assignments.get? field = some e) :
    b.AssignsOnce field e :=
  Block.assignsOnce_of_get? (by rw [h.invocation, hget])

/-- A node that is linked to an input that is used has a block. -/
theorem mem_nodes (h : f.CodeOf g naming b node s slot) (hlinked : Linked node s name socket link) :
    link.node ∈ f.nodes := by
  obtain ⟨input, hget, hlink⟩ := hlinked.input
  have hused : (s.input? name).isSome := by
    rw [hlinked.socket]
    rfl
  exact h.reads _ ⟨node, s, h.get, h.kernel, (name, input), Keyed.get?_eq_some_iff.1 hget, hused,
    link, hlink, rfl⟩

end Function.CodeOf

namespace Library

/-- The function of an added graph has blocks that are the code of nodes, whose variables are those
of their blocks. -/
theorem Addition.exists_codeOf {l l' : Library} {title : String} {role : Role} {i : Nat}
    (h : l.Addition title g role (.ok i, l')) :
    ∃ (f : Function) (naming : String → String), l'.functions = l.functions ++ [f] ∧
      (∀ b ∈ f.blocks, naming b.node = b.identifier) ∧
      ∀ b ∈ f.blocks, ∃ node s slot, f.CodeOf g naming b node s slot := by
  obtain ⟨-, registry, blocks, rfl, hblocks⟩ := h.of_ok
  rcases hblocks with ⟨-, -, rfl⟩ | ⟨out, q, -, -, rfl, hvisited⟩
  · exact ⟨⟨role, title, l.freshName title, []⟩, id, rfl, nofun, nofun⟩
  · refine ⟨⟨role, title, l.freshName title, q.blocks⟩, q.naming, rfl, fun b hb => ?_,
      fun b hb => ?_⟩
    · obtain ⟨node, s, slot, hcode⟩ := hvisited.sound.code b hb
      rw [Progress.naming, hcode.identifier, Option.getD_some]
    · obtain ⟨node, s, slot, hcode⟩ := hvisited.sound.code b hb
      refine ⟨node, s, slot, hcode.get, hcode.kernel, hcode.invocation, fun source hreads => ?_⟩
      obtain ⟨before, after, hsplit⟩ := List.append_of_mem hb
      obtain ⟨b', -, hb', rfl, -⟩ := hvisited.sound.exists_before_of_reads hsplit hreads
      exact List.mem_map_of_mem hb'

/-- A graph that is added to a library gets a function whose blocks are the code of its nodes. -/
theorem exists_codeOf_of_add {requests : List Request} {title : String} {role : Role} {i : Nat}
    (h : ((after requests).add title g role).1 = .ok i) :
    ∃ (f : Function) (naming : String → String),
      ((after requests).add title g role).2.functions = (after requests).functions ++ [f] ∧
      (∀ b ∈ f.blocks, naming b.node = b.identifier) ∧
      ∀ b ∈ f.blocks, ∃ node s slot, f.CodeOf g naming b node s slot := by
  have haddition := add_addition (after_wellFormed requests) title g role
  rw [show (after requests).add title g role = (.ok i, _) from Prod.ext h rfl] at haddition
  exact haddition.exists_codeOf

end Library

/-! ## What a block assigns -/

/-- What a block assigns to fields that are linked. -/
structure Block.ReadsLinks (b : Block) (f : Function) (g : Graph) (naming : String → String)
    (node : Node) (s : Signature) : Prop where
  /-- A field with a link is read through one, from a node of the function, if no literal comes
  behind all links of the field. -/
  read : ∀ name socket link, Linked node s name socket link → ¬ Overridden node s socket.field →
    ∃ name' socket' link', Linked node s name' socket' link' ∧ socket'.field = socket.field ∧
      link'.node ∈ f.nodes ∧
      b.AssignsOnce socket.field (readExpression g naming link' socket.kind)
  /-- A literal that comes behind all links of the field replaces them. -/
  replaced : ∀ name socket link, Linked node s name socket link →
    Overridden node s socket.field →
    ∃ name' socket' e, Held node s name' socket' e ∧ socket'.field = socket.field ∧
      b.AssignsOnce socket.field e

/-- What a block assigns to fields for vectors of the point that is shaded, and which fields it
leaves out. -/
structure Block.FillsContexts (b : Block) (f : Function) (g : Graph) (naming : String → String)
    (node : Node) (s : Signature) : Prop where
  /-- If the input of the field is linked, the field is read through the link. -/
  linked : ∀ field c, (field, c) ∈ contextDefaults s.name →
    ∀ name socket link, Linked node s name socket link → socket.field = field →
      link.node ∈ f.nodes ∧ b.AssignsOnce field (readExpression g naming link socket.kind)
  /-- If not, it gets the vector, whatever the input holds. -/
  unlinked : ∀ field c, (field, c) ∈ contextDefaults s.name →
    (∀ name socket link, Linked node s name socket link → socket.field ≠ field) →
    b.AssignsOnce field (.context c)
  /-- A field is left out if there is no link, no literal that it can hold, no such vector and
  nothing from the rule of the node's type for it, and only then. -/
  left_out_iff : ∀ field, (∀ a ∈ b.invocation.assignments.entries, a.1 ≠ field) ↔
    (∀ name socket link, Linked node s name socket link → socket.field ≠ field) ∧
    (∀ name socket e, Held node s name socket e → socket.field ≠ field) ∧
    (∀ c, (field, c) ∉ contextDefaults s.name) ∧
    ∀ slot, (invocationOf node.kernel s slot).assignments.get? field = none

namespace Function.CodeOf

/-- The code of a node reads its links. -/
theorem readsLinks (h : f.CodeOf g naming b node s slot) : b.ReadsLinks f g naming node s where
  read name socket link hlinked hlast := by
    obtain ⟨name', socket', link', hlinked', hfield, hget⟩ :=
      hlinked.get?_of_not_overridden h.mem_catalogue hlast
    exact ⟨name', socket', link', hlinked', hfield, h.mem_nodes hlinked', h.assignsOnce hget⟩
  replaced name socket link hlinked hlast := by
    obtain ⟨name', socket', e, hheld, hfield, hget⟩ :=
      hlinked.get?_of_overridden h.mem_catalogue hlast
    exact ⟨name', socket', e, hheld, hfield, h.assignsOnce hget⟩

/-- The code of a node fills the fields for vectors of the point that is shaded. -/
theorem fillsContexts (h : f.CodeOf g naming b node s slot) :
    b.FillsContexts f g naming node s where
  linked field c hdefault name socket link hlinked hfield := by
    subst hfield
    exact ⟨h.mem_nodes hlinked, h.assignsOnce (hlinked.get?_of_context h.mem_catalogue hdefault)⟩
  unlinked field c hdefault hnone := h.assignsOnce (get?_of_context h.kernel hdefault hnone)
  left_out_iff field := by
    rw [← Block.get?_eq_none_iff, h.invocation, get?_nodeInvocation_eq_none_iff]
    -- what the rule assigns does not depend on the slot of a texture
    simp only [assignments_invocationOf, forall_const]

end Function.CodeOf

/-! ## Two materials -/

/-- A closure with a number on one input and a link on another. -/
def polish (linked held : String) : Node :=
  ⟨.bsdfPrincipled {}, .ofList
    [fed linked "Value" "Value", (held, ⟨.value, [], some (.scalar 0.5)⟩)]⟩

/-- A material with such a closure. -/
def gloss (linked held : String) : Graph where
  nodes := .ofList
    [("Output", ⟨.outputMaterial, .ofList [fed "Surface" "Bsdf" "BSDF"]⟩),
     ("Bsdf", polish linked held),
     ("Value", ⟨.value { value := 0.25 }, .empty⟩)]

/-- A material with a number for a normal, and with an image at a place of its own. -/
def tilted : Graph where
  nodes := .ofList
    [("Output", ⟨.outputMaterial, .ofList [fed "Surface" "Bsdf" "BSDF"]⟩),
     ("Bsdf", ⟨.bsdfGlass {}, .ofList
       [fed "Color" "Image" "Color", ("Normal", ⟨.vector, [], some (.vector [0])⟩)]⟩),
     ("Image", ⟨.texImage {}, .ofList [fed "Vector" "Coordinates" "Reflection"]⟩),
     ("Coordinates", ⟨.textureCoordinate, .empty⟩)]

theorem get?_polish (linked held name : String) :
    (polish linked held).inputs.get? name =
      if name = held then some ⟨.value, [], some (.scalar 0.5)⟩
      else if name = linked then some ⟨.other, [⟨"Value", "Value"⟩], none⟩ else none := by
  simp only [polish, Keyed.ofList, List.foldl_cons, List.foldl_nil, fed, Keyed.get?_insert,
    Keyed.get?_empty]

/-- Its link is one if the inputs are two. -/
theorem linked_polish {linked held : String} {socket : Socket} (hne : linked ≠ held)
    (hsocket : s.input? linked = some socket) :
    Linked (polish linked held) s linked socket ⟨"Value", "Value"⟩ :=
  ⟨⟨_, by rw [get?_polish, if_neg hne, if_pos rfl], rfl⟩, hsocket⟩

/-- Its number does not replace its link if the input of the link has the later name. -/
theorem not_overridden_polish {linked held : String} {socket : Socket} (hlt : held < linked)
    (hsocket : s.input? linked = some socket) :
    ¬ Overridden (polish linked held) s socket.field := by
  rintro ⟨name, socket', e, hheld, -, hlast⟩
  have hne : linked ≠ held := fun heq => String.lt_irrefl _ (heq ▸ hlt)
  obtain ⟨input, value, hget, hnone, -⟩ := hheld.input
  have hbehind : linked < name := hlast _ _ _ (linked_polish hne hsocket) rfl
  rw [get?_polish, if_neg, if_neg] at hget
  · cases hget
  · rintro rfl
    exact String.lt_irrefl _ hbehind
  · rintro rfl
    exact String.lt_irrefl _ (String.lt_trans hlt hbehind)

/-- What the blocks of a function assign to a field, by their nodes. -/
def Function.assigned (f : Function) (field : String) : List (String × Option Expression) :=
  f.blocks.map fun b => (b.node, b.invocation.assignments.get? field)

/-- An assignment to a field is that of a block. -/
theorem Function.exists_assignsOnce {l : List (String × Option Expression)} {name : String}
    (h : f.assigned field = l) (hmem : (name, some e) ∈ l) :
    ∃ b ∈ f.blocks, b.node = name ∧ b.AssignsOnce field e := by
  obtain ⟨b, hb, heq⟩ := List.mem_map.1 (h ▸ hmem)
  obtain ⟨hnode, hget⟩ := Prod.mk.inj heq
  exact ⟨b, hb, hnode, Block.assignsOnce_of_get? hget⟩

/-- What is read through a link is no literal. -/
theorem readExpression_ne_constant (g : Graph) (naming : String → String) (link : Link)
    (target : FieldKind) (v : Vec4 Float32) :
    readExpression g naming link target ≠ .constant v := by
  unfold readExpression
  split
  · cases target <;> exact nofun
  · next socket _ =>
    cases socket.kind <;> cases target <;> exact nofun

/-! ## Main results -/

namespace Library

/-- In every function that is added to a library, a field of a node to which an input of the node is
linked is assigned once. What is assigned to it is read through a link of the field, unless an input
behind all links of the field, by the order of names, holds a literal that replaces them. -/
theorem add_reads_links (requests : List Request) (title : String) (g : Graph) (role : Role)
    (i : Nat) (h : ((after requests).add title g role).1 = .ok i) :
    ∃ (f : Function) (naming : String → String),
      ((after requests).add title g role).2.functions = (after requests).functions ++ [f] ∧
      (∀ b ∈ f.blocks, naming b.node = b.identifier) ∧
      ∀ b ∈ f.blocks, ∃ node s, g.get? b.node = some node ∧ node.kernel.signature? = some s ∧
        b.invocation.signature = s ∧ b.ReadsLinks f g naming node s := by
  obtain ⟨f, naming, hfunctions, hnaming, hblocks⟩ := exists_codeOf_of_add h
  refine ⟨f, naming, hfunctions, hnaming, fun b hb => ?_⟩
  obtain ⟨node, s, slot, hcode⟩ := hblocks b hb
  exact ⟨node, s, hcode.get, hcode.kernel, hcode.signature, hcode.readsLinks⟩

/-- A link behind a number, by the names of their inputs: the number does not replace it. -/
theorem reads_gloss :
    ((after []).add "Gloss" (gloss "Specular IOR Level" "Specular") .surface).1 = .ok 0 ∧
      ∃ (f : Function) (naming : String → String) (b : Block) (s : Signature) (socket : Socket),
        ((after []).add "Gloss" (gloss "Specular IOR Level" "Specular") .surface).2.functions =
          [f] ∧ b ∈ f.blocks ∧ b.node = "Bsdf" ∧
        Linked (polish "Specular IOR Level" "Specular") s "Specular IOR Level" socket
          ⟨"Value", "Value"⟩ ∧
        ¬ Overridden (polish "Specular IOR Level" "Specular") s socket.field ∧
        b.ReadsLinks f (gloss "Specular IOR Level" "Specular") naming
          (polish "Specular IOR Level" "Specular") s := by
  have hadded : ((after []).add "Gloss" (gloss "Specular IOR Level" "Specular") .surface).1 =
      .ok 0 := by decide +kernel
  have hnodes : ((after []).add "Gloss" (gloss "Specular IOR Level" "Specular")
      .surface).2.functions.map Function.nodes = [["Value", "Bsdf", "Output"]] := by decide +kernel
  obtain ⟨f, naming, hfunctions, -, hblocks⟩ := add_reads_links [] "Gloss" _ .surface 0 hadded
  rw [hfunctions] at hnodes
  have hmem : "Bsdf" ∈ f.nodes := by
    rw [List.singleton_inj.1 hnodes]
    decide
  obtain ⟨b, hb, hnode⟩ := List.mem_map.1 hmem
  obtain ⟨node, s, hget, hkernel, -, hreads⟩ := hblocks b hb
  rw [hnode] at hget
  obtain rfl : polish "Specular IOR Level" "Specular" = node := Option.some.inj hget
  obtain ⟨socket, hsocket⟩ : ∃ socket, s.input? "Specular IOR Level" = some socket := by
    cases hkernel
    exact ⟨_, rfl⟩
  exact ⟨hadded, f, naming, b, s, socket, hfunctions, hb, hnode,
    linked_polish (by decide) hsocket, not_overridden_polish (by decide) hsocket, hreads⟩

/-- A number behind a link: nothing is read through the link. -/
theorem number_behind_link :
    ((after []).add "Gloss" (gloss "Specular" "Specular IOR Level") .surface).1 = .ok 0 ∧
      ∃ (f : Function) (b : Block) (s : Signature) (socket : Socket),
        ((after []).add "Gloss" (gloss "Specular" "Specular IOR Level") .surface).2.functions =
          [f] ∧ b ∈ f.blocks ∧
        (gloss "Specular" "Specular IOR Level").get? b.node =
          some (polish "Specular" "Specular IOR Level") ∧
        (polish "Specular" "Specular IOR Level").kernel.signature? = some s ∧
        Linked (polish "Specular" "Specular IOR Level") s "Specular" socket ⟨"Value", "Value"⟩ ∧
        b.AssignsOnce socket.field (.constant (.splat 0.5)) ∧
        ∀ naming link, ¬ b.AssignsOnce socket.field
          (readExpression (gloss "Specular" "Specular IOR Level") naming link socket.kind) := by
  have hadded : ((after []).add "Gloss" (gloss "Specular" "Specular IOR Level") .surface).1 =
      .ok 0 := by decide +kernel
  have hassigned : ((after []).add "Gloss" (gloss "Specular" "Specular IOR Level")
      .surface).2.functions.map (·.assigned "specular") =
      [[("Value", none), ("Bsdf", some (.constant (.splat 0.5))), ("Output", none)]] := by
    decide +kernel
  obtain ⟨f, -, hfunctions, -, -⟩ := exists_codeOf_of_add hadded
  rw [hfunctions] at hassigned
  obtain ⟨b, hb, hnode, honce⟩ : ∃ b ∈ f.blocks, b.node = "Bsdf" ∧
      b.AssignsOnce "specular" (.constant (.splat 0.5)) :=
    Function.exists_assignsOnce (List.singleton_inj.1 hassigned)
      (List.mem_cons_of_mem _ List.mem_cons_self)
  refine ⟨hadded, f, b, _, _, hfunctions, hb, by rw [hnode]; rfl, rfl,
    linked_polish (by decide) rfl, honce, fun naming link hread => ?_⟩
  exact readExpression_ne_constant _ _ _ _ _ (hread.eq honce)

/-- In every function that is added to a library, a field of a node for a vector of the point that
is shaded is assigned once: what is read through the link of its input, or the vector if the input
is not linked. A field of a node is not assigned if and only if it has no link, no literal that it
can hold, no such vector and nothing from the rule of the node's type. -/
theorem add_fills_contexts (requests : List Request) (title : String) (g : Graph) (role : Role)
    (i : Nat) (h : ((after requests).add title g role).1 = .ok i) :
    ∃ (f : Function) (naming : String → String),
      ((after requests).add title g role).2.functions = (after requests).functions ++ [f] ∧
      (∀ b ∈ f.blocks, naming b.node = b.identifier) ∧
      ∀ b ∈ f.blocks, ∃ node s, g.get? b.node = some node ∧ node.kernel.signature? = some s ∧
        b.invocation.signature = s ∧ b.FillsContexts f g naming node s := by
  obtain ⟨f, naming, hfunctions, hnaming, hblocks⟩ := exists_codeOf_of_add h
  refine ⟨f, naming, hfunctions, hnaming, fun b hb => ?_⟩
  obtain ⟨node, s, slot, hcode⟩ := hblocks b hb
  exact ⟨node, s, hcode.get, hcode.kernel, hcode.signature, hcode.fillsContexts⟩

/-- A number for a normal does not count, and a place of its own does. -/
theorem fills_tilted :
    ((after []).add "Tilted" tilted .surface).1 = .ok 0 ∧
      ∃ (f : Function) (naming : String → String),
        ((after []).add "Tilted" tilted .surface).2.functions = [f] ∧
        (∀ b ∈ f.blocks, ∃ node s, tilted.get? b.node = some node ∧
          b.FillsContexts f tilted naming node s) ∧
        (∃ b ∈ f.blocks, b.node = "Bsdf" ∧ b.AssignsOnce "normal" (.context .normal)) ∧
        ∃ b ∈ f.blocks, b.node = "Image" ∧
          b.AssignsOnce "vector" (.field "n_coordinates" "reflection") := by
  have hadded : ((after []).add "Tilted" tilted .surface).1 = .ok 0 := by decide +kernel
  have hnormal : ((after []).add "Tilted" tilted .surface).2.functions.map
      (·.assigned "normal") = [[("Coordinates", none), ("Image", none),
        ("Bsdf", some (.context .normal)), ("Output", none)]] := by decide +kernel
  have hvector : ((after []).add "Tilted" tilted .surface).2.functions.map
      (·.assigned "vector") = [[("Coordinates", none),
        ("Image", some (.field "n_coordinates" "reflection")), ("Bsdf", none),
        ("Output", none)]] := by decide +kernel
  obtain ⟨f, naming, hfunctions, -, hblocks⟩ := add_fills_contexts [] "Tilted" tilted .surface 0
    hadded
  rw [hfunctions] at hnormal hvector
  refine ⟨hadded, f, naming, hfunctions, fun b hb => ?_,
    Function.exists_assignsOnce (List.singleton_inj.1 hnormal) (by decide),
    Function.exists_assignsOnce (List.singleton_inj.1 hvector) (by decide)⟩
  obtain ⟨node, s, hget, -, -, hfills⟩ := hblocks b hb
  exact ⟨node, s, hget, hfills⟩

end Library

end Candela.Shader
