import Candela.Proofs.Shader.Blocks
import Candela.Proofs.Shader.Scope

/-!
# Generated functions are well typed

Every field that a block assigns is declared by the struct of its variable, with the type that the
assigned expression has in the scope of the blocks above (`add_wellTyped`). Three things about the
catalogue carry this. Sockets that share a field agree on its type (`catalogue_agrees`). No graph
can reach a field of an explicit type (`catalogue_hidden`, `catalogue_data`). And the fields that
node types and the point that is shaded fill are there (`catalogue_ruleFields`,
`catalogue_contextFields`). All of them are decided by going through the catalogue.
-/

namespace Candela.Shader

open Candela.Graph (Node Input Link Kernel Literal)

variable {g : Graph} {name field : String} {signature : Signature} {socket : Socket}
  {before : List Block} {e : Expression}

/-! ## Structs of kernels -/

/-- All sockets of a kernel. -/
def Signature.sockets (s : Signature) : List Socket := s.inputs ++ s.outputs

/-- The first socket of a field declares the field. -/
theorem Signature.exists_lookup_firstOfField {seen sockets : List Socket} (hmem : socket ∈ sockets)
    (hnew : seen.any (·.field == socket.field) = false) :
    ∃ first ∈ sockets, first.field = socket.field ∧
      ((firstOfField seen sockets).map fun s => (s.field, s.kind.typeName)).lookup socket.field =
        some first.kind.typeName := by
  induction sockets generalizing seen with
  | nil => cases hmem
  | cons a rest ih =>
    unfold firstOfField
    by_cases heq : a.field = socket.field
    · refine ⟨a, List.mem_cons_self, heq, ?_⟩
      rw [heq, hnew]
      simp [heq]
    · have hrest : socket ∈ rest := by
        rcases List.mem_cons.1 hmem with rfl | hrest
        · exact absurd rfl heq
        · exact hrest
      split
      · obtain ⟨first, hfirst, hfield, hlookup⟩ := ih hrest hnew
        exact ⟨first, List.mem_cons_of_mem _ hfirst, hfield, hlookup⟩
      · have hnew' : (a :: seen).any (·.field == socket.field) = false := by
          simp [heq, hnew]
        obtain ⟨first, hfirst, hfield, hlookup⟩ := ih hrest hnew'
        refine ⟨first, List.mem_cons_of_mem _ hfirst, hfield, ?_⟩
        rw [List.map_cons, Keyed.lookup_cons_eq, if_neg (Ne.symm heq)]
        exact hlookup

/-! ## The catalogue -/

/-- Sockets that share a field agree on its type, and on whether it is an explicit one. -/
theorem catalogue_agrees : ∀ s ∈ catalogue, ∀ a ∈ s.sockets, ∀ b ∈ s.sockets, a.field = b.field →
    a.kind.typeName = b.kind.typeName ∧ a.kind.isRaw = b.kind.isRaw := by
  decide +kernel

/-- A field of an explicit type has no name that a graph could use. -/
theorem catalogue_hidden : ∀ s ∈ catalogue, ∀ a ∈ s.inputs, a.kind.isRaw = true → a.name = "" := by
  decide +kernel

/-- No output has an explicit type. -/
theorem catalogue_data : ∀ s ∈ catalogue, ∀ a ∈ s.outputs, a.kind.isRaw = false := by
  decide +kernel

/-- The fields that hold a vector of the point that is shaded hold four numbers. -/
theorem catalogue_contextFields : ∀ s ∈ catalogue, ∀ d ∈ contextDefaults s.name,
    ∃ a ∈ s.sockets, a.field = d.1 ∧ a.kind.typeName = "vec4f" ∧ a.kind.isRaw = false := by
  decide +kernel

/-- The fields that the rules of node types fill, by their kernels, and their types. -/
def ruleFields : List (String × String × String) :=
  [("TexNishita", "data", arrayType "f32" 10), ("TexNishita", "scale", "f32"),
   ("ColorRamp", "elements", arrayType "RampElement" maxRampElements),
   ("Value", "value", "vec4f"), ("Rgb", "color", "vec4f")]

/-- The kernels have the fields that the rules fill. -/
theorem catalogue_ruleFields : ∀ r ∈ ruleFields, ∀ s ∈ catalogue, s.name = r.1 →
    ∃ a ∈ s.sockets, a.field = r.2.1 ∧ a.kind.typeName = r.2.2 := by
  decide +kernel

/-- The kernel of a node type is in the catalogue under the name that implements the type. -/
theorem mem_catalogue_of_signature? {k : Kernel} (h : k.signature? = some signature) :
    signature ∈ catalogue ∧ k.implementation? = some signature.name := by
  obtain ⟨kernel, himplementation, hfind⟩ := Option.bind_eq_some_iff.1 h
  have hname : signature.name = kernel := by simpa using List.find?_some hfind
  exact ⟨List.mem_of_find?_eq_some hfind, hname ▸ himplementation⟩

/-- The struct of a kernel declares the field of every socket with the socket's type. -/
theorem type?_struct (h : signature ∈ catalogue) (hsocket : socket ∈ signature.sockets) :
    signature.struct.type? socket.field = some socket.kind.typeName := by
  have hnone : ([] : List Socket).any (·.field == socket.field) = false := rfl
  obtain ⟨first, hfirst, hfield, hlookup⟩ :=
    Signature.exists_lookup_firstOfField hsocket hnone
  have hagrees := (catalogue_agrees signature h first hfirst socket hsocket hfield).1
  rw [Struct.type?, Signature.struct, Signature.fields]
  exact hlookup.trans (congrArg some hagrees)

/-- An input that graphs can reach is a field that has no explicit type. -/
theorem mem_sockets_of_input? {input : String} (h : signature ∈ catalogue)
    (hsocket : signature.input? input = some socket) :
    socket ∈ signature.sockets ∧ socket.kind.isRaw = false := by
  have hmem := List.mem_of_find?_eq_some hsocket
  have hname := List.find?_some hsocket
  refine ⟨List.mem_append_left _ hmem, ?_⟩
  by_contra hraw
  rw [Bool.not_eq_false] at hraw
  simp [catalogue_hidden signature h socket hmem hraw] at hname

/-- An output is a field that has no explicit type. -/
theorem mem_sockets_of_output? {output : String} (h : signature ∈ catalogue)
    (hsocket : signature.output? output = some socket) :
    socket ∈ signature.sockets ∧ socket.kind.isRaw = false := by
  have hmem := List.mem_of_find?_eq_some hsocket
  exact ⟨List.mem_append_right _ hmem, catalogue_data signature h socket hmem⟩

/-! ## Assignments -/

/-- There are ten numbers about the sun. -/
theorem length_sunData (m : Sky.Model) : m.sunData.length = 10 := rfl

/-- A color ramp is filled up to the full number of stops. -/
theorem length_paddedStops (elements : List Graph.Parameters.RampElement) :
    (paddedStops (rampStops elements)).length = maxRampElements := by
  have hle : (rampStops elements).length ≤ maxRampElements := by
    rw [rampStops]
    exact List.length_take_le _ _
  rw [paddedStops, List.length_append, List.length_map, List.length_replicate,
    Nat.add_sub_cancel' hle]

/-- What the rule of a node type assigns has the type that is listed for the field. -/
theorem exists_ruleField {k : Kernel} (hkernel : k.signature? = some signature)
    (h : (field, e) ∈ ruleAssignments k) :
    ∃ r ∈ ruleFields, signature.name = r.1 ∧ field = r.2.1 ∧
      ∀ before, (Scope.below before).typeOf? e = some r.2.2 := by
  have himplementation := (mem_catalogue_of_signature? hkernel).2
  unfold ruleAssignments at h
  split at h <;> simp only [List.mem_cons, List.not_mem_nil, or_false, Prod.mk.injEq] at h
  · have hname : signature.name = "TexNishita" := by
      rw [Kernel.implementation?] at himplementation
      split at himplementation
      · exact (Option.some.inj himplementation).symm
      · cases himplementation
    rcases h with ⟨rfl, rfl⟩ | ⟨rfl, rfl⟩
    · refine ⟨("TexNishita", "data", arrayType "f32" 10), by simp [ruleFields], hname, rfl,
        fun before => ?_⟩
      rw [Scope.typeOf?, length_sunData]
    · exact ⟨("TexNishita", "scale", "f32"), by simp [ruleFields], hname, rfl, fun _ => rfl⟩
  · obtain ⟨rfl, rfl⟩ := h
    refine ⟨("ColorRamp", "elements", arrayType "RampElement" maxRampElements),
      by simp [ruleFields], (Option.some.inj himplementation).symm, rfl, fun before => ?_⟩
    rw [Scope.typeOf?_ramp, length_paddedStops]
  · obtain ⟨rfl, rfl⟩ := h
    exact ⟨("Value", "value", "vec4f"), by simp [ruleFields],
      (Option.some.inj himplementation).symm, rfl, fun _ => rfl⟩
  · obtain ⟨rfl, rfl⟩ := h
    exact ⟨("Rgb", "color", "vec4f"), by simp [ruleFields],
      (Option.some.inj himplementation).symm, rfl, fun _ => rfl⟩

/-- A literal is four numbers. -/
theorem typeOf?_ofLiteral? {value : Literal} {target : FieldKind}
    (h : Expression.ofLiteral? value target = some e) :
    (Scope.below before).typeOf? e = some target.typeName := by
  unfold Expression.ofLiteral? at h
  split at h
  · split at h <;> cases h <;> rfl
  · cases h
    rfl
  · cases h
    rfl
  · cases h
  · cases h

/-- What is read through a link has the type of the field that it is put into. -/
theorem typeOf?_readExpression {naming : String → String} {link : Link} {target : FieldKind}
    (htarget : target.isRaw = false)
    (hread : ∀ socket, sourceSocket? g link = some socket → socket.kind.isRaw = false ∧
      (Scope.below before).typeOf? (.field (naming link.node) socket.field) =
        some socket.kind.typeName) :
    (Scope.below before).typeOf? (readExpression g naming link target) =
      some target.typeName := by
  unfold readExpression
  split
  · exact Scope.typeOf?_absent htarget
  · next socket hsocket =>
    obtain ⟨hdata, htype⟩ := hread socket hsocket
    exact Scope.typeOf?_convert hdata htarget htype

/-- An assigned field is that of a socket, whose type the expression has; and if the type is an
explicit one, the rule of the node's type has assigned it. -/
theorem Assigned.exists_socket {naming : String → String} {node : Node}
    (h : Assigned g naming node signature field e) (hget : g.get? name = some node)
    (hkernel : node.kernel.signature? = some signature)
    (hread : ∀ link socket, g.Reads name link.node → sourceSocket? g link = some socket →
      socket.kind.isRaw = false ∧
        (Scope.below before).typeOf? (.field (naming link.node) socket.field) =
          some socket.kind.typeName) :
    ∃ socket ∈ signature.sockets, socket.field = field ∧
      (Scope.below before).typeOf? e = some socket.kind.typeName ∧
      (socket.kind.isRaw = true →
        (Keyed.ofList (ruleAssignments node.kernel)).get? field = some e) := by
  have hmem := (mem_catalogue_of_signature? hkernel).1
  cases h with
  | rule hrule =>
    obtain ⟨r, hr, hname, rfl, htype⟩ :=
      exists_ruleField hkernel (Keyed.mem_of_get?_ofList hrule)
    obtain ⟨socket, hsocket, hfield, hkind⟩ := catalogue_ruleFields r hr signature hmem hname
    refine ⟨socket, hsocket, hfield, ?_, fun _ => hrule⟩
    rw [htype, hkind]
  | @link input socket link hinput hsocket hfield hlink =>
    obtain ⟨hsockets, hdata⟩ := mem_sockets_of_input? hmem hsocket
    have hreads : g.Reads name link.node :=
      ⟨node, signature, hget, hkernel, input, hinput, by simp [hsocket], link, hlink, rfl⟩
    refine ⟨socket, hsockets, hfield, ?_, fun hraw => ?_⟩
    · exact typeOf?_readExpression hdata fun source hsource => hread link source hreads hsource
    · rw [hdata] at hraw
      cases hraw
  | literal hsocket hfield hvalue =>
    obtain ⟨hsockets, hdata⟩ := mem_sockets_of_input? hmem hsocket
    refine ⟨_, hsockets, hfield, typeOf?_ofLiteral? hvalue, fun hraw => ?_⟩
    rw [hdata] at hraw
    cases hraw
  | context hdefault =>
    obtain ⟨socket, hsocket, hfield, hkind, hdata⟩ :=
      catalogue_contextFields signature hmem _ hdefault
    refine ⟨socket, hsocket, hfield, ?_, fun hraw => ?_⟩
    · rw [Scope.typeOf?_context, hkind]
    · rw [hdata] at hraw
      cases hraw

/-! ## Blocks -/

/-- A block whose node has some kernel is well typed below other blocks. -/
structure Block.WellTyped (before : List Block) (k : Kernel) (b : Block) : Prop where
  /-- Its variable holds a struct. -/
  declared : Occurs
    ("    var " ++ b.identifier ++ ": " ++ b.invocation.signature.struct.name ++ ";\n") b.text
  /-- The header declares the struct. -/
  header : ∀ stamp formats, Occurs b.invocation.signature.struct.text (header stamp formats)
  /-- What is assigned to a field has the type that the struct declares for it. -/
  typed : ∀ field e, b.invocation.assignments.get? field = some e →
    ∃ type, b.invocation.signature.struct.type? field = some type ∧
      (Scope.below before).typeOf? e = some type
  /-- What is assigned to a field of an explicit type is what the rule of the kernel assigns. -/
  explicit : ∀ field e, b.invocation.assignments.get? field = some e →
    ∀ socket ∈ b.invocation.signature.sockets, socket.field = field → socket.kind.isRaw = true →
      ∀ slot, (invocationOf k b.invocation.signature slot).assignments.get? field = some e

/-- The text of a block declares its variable. -/
theorem Block.occurs_declaration (b : Block) :
    Occurs ("    var " ++ b.identifier ++ ": " ++ b.invocation.signature.struct.name ++ ";\n")
      b.text := by
  unfold Block.text Invocation.render
  -- the assignments and the pieces of the call stand behind the declaration
  iterate 6 refine .append_right ?_ _
  refine ⟨"\n" ++ String.join (b.invocation.comments.map Invocation.commentText), "", ?_⟩
  simp only [String.append_assoc, String.append_empty]
  rfl

/-- What a block may read of a node above it has the type of the output that the link names. -/
theorem Progress.Sound.typeOf?_link {initial : Texture.Registry} {out : String} {q : Progress}
    {after : List Block} {b : Block} {link : Link} (h : q.Sound g initial out)
    (hsplit : q.blocks = before ++ b :: after) (hreads : g.Reads b.node link.node)
    (hsource : sourceSocket? g link = some socket) :
    socket.kind.isRaw = false ∧
      (Scope.below before).typeOf? (.field (q.naming link.node) socket.field) =
        some socket.kind.typeName := by
  obtain ⟨b', hb', hmem, hlink, hnaming⟩ := h.exists_before_of_reads hsplit hreads
  obtain ⟨node, signature, slot, hcode⟩ := h.code b' hmem
  have hsignature : b'.invocation.signature = signature := by
    rw [hcode.invocation, signature_nodeInvocation]
  have hcatalogue := (mem_catalogue_of_signature? hcode.kernel).1
  have houtput : signature.output? link.property = some socket := by
    rw [sourceSocket?, ← hlink, hcode.get, Option.bind_eq_bind, Option.bind_some, hcode.kernel,
      Option.bind_eq_bind, Option.bind_some] at hsource
    exact hsource
  obtain ⟨hsockets, hdata⟩ := mem_sockets_of_output? hcatalogue houtput
  have hnodup : (before.map Block.identifier).Nodup := by
    have hall := h.nodup_identifiers
    rw [hsplit, List.map_append] at hall
    exact (List.nodup_append.1 hall).1
  refine ⟨hdata, ?_⟩
  rw [hnaming, Scope.typeOf?_field hnodup hb' (hsignature ▸ hcatalogue),
    hsignature, type?_struct hcatalogue hsockets]

/-- A block that has been written is well typed below the blocks above it. -/
theorem Progress.Sound.wellTyped {initial : Texture.Registry} {out : String} {q : Progress}
    {after : List Block} {b : Block} (h : q.Sound g initial out)
    (hsplit : q.blocks = before ++ b :: after) :
    ∃ node, g.get? b.node = some node ∧ b.WellTyped before node.kernel := by
  have hb : b ∈ q.blocks := by
    rw [hsplit]
    exact List.mem_append_right _ List.mem_cons_self
  obtain ⟨node, signature, slot, hcode⟩ := h.code b hb
  have hsignature : b.invocation.signature = signature := by
    rw [hcode.invocation, signature_nodeInvocation]
  have hcatalogue := (mem_catalogue_of_signature? hcode.kernel).1
  have hassigned : ∀ field e, b.invocation.assignments.get? field = some e →
      ∃ socket ∈ signature.sockets, socket.field = field ∧
        (Scope.below before).typeOf? e = some socket.kind.typeName ∧
        (socket.kind.isRaw = true →
          (Keyed.ofList (ruleAssignments node.kernel)).get? field = some e) := by
    intro field e hget
    rw [hcode.invocation] at hget
    exact (assigned_of_get? hget).exists_socket hcode.get hcode.kernel
      fun link socket hreads hsource => h.typeOf?_link hsplit hreads hsource
  refine ⟨node, hcode.get, b.occurs_declaration, ?_, fun field e hget => ?_,
    fun field e hget socket hsocket hfield hraw slot => ?_⟩
  · intro stamp formats
    rw [hsignature]
    exact occurs_header hcatalogue stamp formats
  · obtain ⟨socket, hsocket, rfl, htype, -⟩ := hassigned field e hget
    rw [hsignature]
    exact ⟨_, type?_struct hcatalogue hsocket, htype⟩
  · obtain ⟨socket', hsocket', hfield', -, hrule⟩ := hassigned field e hget
    rw [hsignature] at hsocket
    have hagrees := catalogue_agrees signature hcatalogue socket hsocket socket' hsocket'
      (hfield.trans hfield'.symm)
    rw [assignments_invocationOf]
    exact hrule (hagrees.2 ▸ hraw)

/-- A material whose links run between sockets of different kinds, and one to no output at all. -/
def misfits : Graph where
  nodes := .ofList
    [("Output", ⟨.outputMaterial, .ofList
       [fed "Surface" "Ramp" "Color", fed "Volume" "Bsdf" "Shadow",
        fed "Displacement" "Bsdf" "BSDF"]⟩),
     ("Ramp", ⟨.colorRamp { elements := [] }, .ofList
       [fed "Fac" "Image" "Color", fed "" "Image" "Alpha", fed "elements" "Image" "Alpha"]⟩),
     ("Bsdf", ⟨.bsdfDiffuse, .ofList [fed "Normal" "Image" "Alpha"]⟩),
     ("Image", ⟨.texImage {}, .empty⟩)]

/-! ## Main result -/

namespace Library

/-- Every block of a function that is added to a library is well typed below the blocks above it,
and what its types are computed from is declared in the text of the library. -/
theorem add_wellTyped (requests : List Request) (title : String) (g : Graph) (role : Role) (i : Nat)
    (h : ((Library.after requests).add title g role).1 = .ok i) :
    ∃ f : Function,
      ((Library.after requests).add title g role).2.functions =
        (Library.after requests).functions ++ [f] ∧
      ∀ before b after, f.blocks = before ++ b :: after →
        (∃ node, g.get? b.node = some node ∧ b.WellTyped before node.kernel) ∧
        ∀ stamp formats,
          let source := ((Library.after requests).add title g role).2.source .standard stamp formats
          (∀ s ∈ (Scope.below before).structs, Occurs s.text source) ∧
            ∀ helper ∈ (Scope.below before).helpers, Occurs helper.text source := by
  have haddition := add_addition (after_wellFormed requests) title g role
  cases hout : (Library.after requests).add title g role with
  | mk answer l' =>
    rw [hout] at h haddition
    cases h
    obtain ⟨-, registry, blocks, rfl, hblocks⟩ := haddition.of_ok
    refine ⟨⟨role, title, (Library.after requests).freshName title, blocks⟩, rfl,
      fun before b after hsplit => ⟨?_, fun stamp formats => ⟨fun s hs => ?_, fun f hf => ?_⟩⟩⟩
    · rcases hblocks with ⟨-, -, rfl⟩ | ⟨out, q, -, -, rfl, hvisited⟩
      · exact absurd hsplit (by simp)
      · exact hvisited.sound.wellTyped hsplit
    · exact Scope.occurs_struct hs
    · exact Scope.occurs_helper hf

/-- The links of the misfits become assignments that fit. -/
theorem wellTyped_misfits :
    ((Library.after []).add "Misfits" misfits .surface).1 = .ok 0 ∧
      ∃ f : Function, ((Library.after []).add "Misfits" misfits .surface).2.functions = [f] ∧
        f.nodes = ["Image", "Bsdf", "Ramp", "Output"] ∧
        ∀ before b after, f.blocks = before ++ b :: after →
          ∃ node, misfits.get? b.node = some node ∧ b.WellTyped before node.kernel := by
  have hadded : ((Library.after []).add "Misfits" misfits .surface).1 = .ok 0 := by decide +kernel
  have hnodes : ((Library.after []).add "Misfits" misfits .surface).2.functions.map
      Function.nodes = [["Image", "Bsdf", "Ramp", "Output"]] := by decide +kernel
  obtain ⟨f, hfunctions, hblocks⟩ := add_wellTyped [] "Misfits" misfits .surface 0 hadded
  rw [hfunctions] at hnodes
  exact ⟨hadded, f, hfunctions, List.singleton_inj.1 hnodes,
    fun before b after hsplit => (hblocks before b after hsplit).1⟩

end Library

end Candela.Shader
