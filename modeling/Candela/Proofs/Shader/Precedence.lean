import Candela.Proofs.Shader.Typing

/-!
# Which assignment a field gets

A field can be assigned by the rule of a node's type, by inputs, which are put in by the order of
their names, and by a vector of the point that is shaded. Of the inputs the last one that has
something for the field decides, before the rule and the vector (`get?_nodeInvocation`). An input
has a link (`Linked`) or a literal (`Held`) for its field; a literal has nothing for a field that
holds a vector of the point that is shaded.

Inputs of several names can share a field. So a link is replaced by a literal if and only if an
input with a later name holds one for the field (`Overridden`). Fields for vectors of the point that
is shaded have one input each (`catalogue_contextInputs`), and nothing is replaced there.
-/

namespace Candela.Shader

open Candela.Graph (Node Input Link Kernel Literal)

variable {g : Graph} {naming : String → String} {node : Node} {s : Signature} {slot : Nat}
  {name name' nodeName field : String} {input : Input} {socket socket' : Socket} {link link' : Link}
  {e : Expression} {c : Context}

/-! ## Inputs of a field -/

/-- An input that a kernel uses is linked. -/
structure Linked (node : Node) (s : Signature) (name : String) (socket : Socket) (link : Link) :
    Prop where
  input : ∃ input, node.inputs.get? name = some input ∧ input.links.head? = some link
  socket : s.input? name = some socket

/-- An input that a kernel uses is not linked, and holds a literal that its field can hold. -/
structure Held (node : Node) (s : Signature) (name : String) (socket : Socket) (e : Expression) :
    Prop where
  input : ∃ input value, node.inputs.get? name = some input ∧ input.links = [] ∧
    input.value = some value ∧ Expression.ofLiteral? value socket.kind = some e
  socket : s.input? name = some socket

/-- A literal for a field comes behind all links for it, by the order of names. -/
def Overridden (node : Node) (s : Signature) (field : String) : Prop :=
  ∃ name socket e, Held node s name socket e ∧ socket.field = field ∧
    ∀ name' socket' link, Linked node s name' socket' link → socket'.field = field → name' < name

/-- An input has one link. -/
theorem Linked.unique (h : Linked node s name socket link)
    (h' : Linked node s name socket' link') : socket = socket' ∧ link = link' := by
  obtain ⟨input, hget, hlink⟩ := h.input
  obtain ⟨input', hget', hlink'⟩ := h'.input
  obtain rfl : input = input' := Option.some.inj (hget.symm.trans hget')
  exact ⟨Option.some.inj (h.socket.symm.trans h'.socket),
    Option.some.inj (hlink.symm.trans hlink')⟩

/-- A linked input holds no literal. -/
theorem Linked.not_held (h : Linked node s name socket link) : ¬ Held node s name socket' e := by
  intro hheld
  obtain ⟨input, hget, hlink⟩ := h.input
  obtain ⟨input', value, hget', hnone, -⟩ := hheld.input
  rw [hget] at hget'
  cases hget'
  rw [hnone] at hlink
  cases hlink

/-- What an input assigns to a field, if it assigns anything to it. -/
def offer? (g : Graph) (naming : String → String) (s : Signature) (field : String)
    (input : String × Input) : Option Expression :=
  (inputAssignment? g naming s input).bind fun a => if a.1 = field then some a.2 else none

/-- A linked input has what is read through the link. -/
theorem Linked.offer?_eq (h : Linked node s name socket link)
    (hget : node.inputs.get? name = some input) :
    offer? g naming s socket.field (name, input) =
      some (readExpression g naming link socket.kind) := by
  obtain ⟨input', hget', hlink⟩ := h.input
  rw [hget] at hget'
  cases hget'
  simp only [offer?, inputAssignment?, h.socket, hlink, Option.bind_some, if_true]

/-- An input with a literal has the literal, unless a vector of the point that is shaded stands in
for it. -/
theorem Held.offer?_eq (h : Held node s name socket e) (hget : node.inputs.get? name = some input)
    (hfree : (contextDefaults s.name).lookup socket.field = none) :
    offer? g naming s socket.field (name, input) = some e := by
  obtain ⟨input', value, hget', hnone, hvalue, he⟩ := h.input
  rw [hget] at hget'
  cases hget'
  simp only [offer?, inputAssignment?, h.socket, hnone, List.head?_nil, hfree, hvalue,
    Option.isSome_none, Bool.false_eq_true, if_false, Option.bind_some, he, Option.map_some,
    if_true]

/-- An input has nothing else. -/
theorem linked_or_held_of_offer? (hget : node.inputs.get? name = some input)
    (h : offer? g naming s field (name, input) = some e) :
    (∃ socket link, Linked node s name socket link ∧ socket.field = field ∧
      e = readExpression g naming link socket.kind) ∨
    ∃ socket, Held node s name socket e ∧ socket.field = field ∧
      (contextDefaults s.name).lookup field = none := by
  obtain ⟨⟨field', e'⟩, hassigned, hfield⟩ := Option.bind_eq_some_iff.1 h
  obtain ⟨rfl, rfl⟩ : field' = field ∧ e' = e := by simpa using hfield
  unfold inputAssignment? at hassigned
  split at hassigned
  · cases hassigned
  · next socket link hsocket hlink =>
    cases hassigned
    exact .inl ⟨socket, link, ⟨⟨input, hget, hlink⟩, hsocket⟩, rfl, rfl⟩
  · next socket hsocket hlink =>
    split at hassigned
    · cases hassigned
    · next hfree =>
      obtain ⟨e, he, heq⟩ := Option.map_eq_some_iff.1 hassigned
      cases heq
      obtain ⟨value, hvalue, he⟩ := Option.bind_eq_some_iff.1 he
      exact .inr ⟨socket, ⟨⟨input, value, hget, List.head?_eq_none_iff.1 hlink, hvalue, he⟩,
        hsocket⟩, rfl, Option.not_isSome_iff_eq_none.1 hfree⟩

/-! ## The last input decides -/

/-- A look-up in the list of what some elements contribute finds the first contribution. -/
theorem lookup_filterMap {α β : Type} (f : α → Option (String × β)) (l : List α) (name : String) :
    (l.filterMap f).lookup name =
      l.findSome? fun a => (f a).bind fun p => if p.1 = name then some p.2 else none := by
  induction l with
  | nil => rfl
  | cons a rest ih =>
    rw [List.findSome?_cons, List.filterMap_cons]
    cases hfa : f a with
    | none => exact ih
    | some p =>
      obtain ⟨key, v⟩ := p
      simp only [Keyed.lookup_cons_eq, ih, Option.bind_some]
      by_cases hkey : name = key
      · rw [if_pos hkey, if_pos hkey.symm]
      · rw [if_neg hkey, if_neg (Ne.symm hkey)]

/-- The last input that has something for a field decides what is assigned to it. If there is none,
the rule of the node's type does, and then the vector of the point that is shaded. -/
theorem get?_nodeInvocation (g : Graph) (naming : String → String) (name : String) (node : Node)
    (s : Signature) (slot : Nat) (field : String) :
    (nodeInvocation g naming name node s slot).assignments.get? field =
      ((node.inputs.entries.reverse.findSome? (offer? g naming s field)).or
        ((Keyed.ofList (ruleAssignments node.kernel)).get? field)).or
        (((contextDefaults s.name).lookup field).map .context) := by
  rw [nodeInvocation, get?_assignDefaults, inputInvocation, Invocation.assignments_assignAll,
    Keyed.get?_foldl_insert_eq, Invocation.assignments_comment, assignments_invocationOf,
    ← List.filterMap_reverse, lookup_filterMap]
  rfl

/-- If an input of a field is linked, there is a last input that has something for the field, and it
decides. -/
theorem Linked.exists_last (h : Linked node s name socket link) (g : Graph)
    (naming : String → String) (nodeName : String) (slot : Nat) :
    ∃ last input e, node.inputs.get? last = some input ∧
      offer? g naming s socket.field (last, input) = some e ∧
      (nodeInvocation g naming nodeName node s slot).assignments.get? socket.field = some e ∧
      ∀ name input, node.inputs.get? name = some input → last < name →
        offer? g naming s socket.field (name, input) = none := by
  obtain ⟨input, hget, -⟩ := h.input
  have hsome : (node.inputs.entries.reverse.findSome?
      (offer? g naming s socket.field)).isSome := by
    refine List.findSome?_isSome_iff.2 ⟨(name, input), ?_, ?_⟩
    · exact List.mem_reverse.2 (Keyed.get?_eq_some_iff.1 hget)
    · rw [h.offer?_eq hget]
      rfl
  obtain ⟨e, hfound⟩ := Option.isSome_iff_exists.1 hsome
  obtain ⟨⟨last, input'⟩, hlast, hoffer, hbehind⟩ := Keyed.exists_of_findSome?_reverse hfound
  refine ⟨last, input', e, Keyed.get?_eq_some_iff.2 hlast, hoffer, ?_, fun name input hget hlt =>
    hbehind (name, input) (Keyed.get?_eq_some_iff.1 hget) hlt⟩
  rw [get?_nodeInvocation, hfound, Option.some_or, Option.some_or]

/-! ## Fields in the catalogue -/

/-- A field for a vector of the point that is shaded has one input. -/
theorem catalogue_contextInputs : ∀ s ∈ catalogue, ∀ d ∈ contextDefaults s.name,
    ∀ a ∈ s.inputs, ∀ b ∈ s.inputs, a.field = d.1 → b.field = d.1 → a.name = b.name := by
  decide +kernel

/-- Inputs that share a field are of one kind. -/
theorem catalogue_aliases : ∀ s ∈ catalogue, ∀ a ∈ s.inputs, ∀ b ∈ s.inputs, a.name ≠ "" →
    b.name ≠ "" → a.field = b.field → a.kind = b.kind := by
  decide +kernel

/-- The rules of node types fill no field for a vector of the point that is shaded. -/
theorem ruleFields_context : ∀ r ∈ ruleFields, ∀ d ∈ contextDefaults r.1, r.2.1 ≠ d.1 := by
  decide +kernel

/-- A kernel has at most one field for a vector of the point that is shaded. -/
theorem contextDefaults_eq (kernel : String) :
    contextDefaults kernel = [] ∨ ∃ d, contextDefaults kernel = [d] := by
  unfold contextDefaults
  split_ifs <;> simp

/-- The vector of a field is found. -/
theorem lookup_contextDefaults {kernel : String} (h : (field, c) ∈ contextDefaults kernel) :
    (contextDefaults kernel).lookup field = some c := by
  rcases contextDefaults_eq kernel with hnone | ⟨d, hone⟩
  · rw [hnone] at h
    cases h
  · rw [hone] at h ⊢
    cases List.mem_singleton.1 h
    exact List.lookup_cons_self

/-- An input socket has the name it is looked up by, which is not empty. -/
theorem Signature.of_input? (h : s.input? name = some socket) :
    socket ∈ s.inputs ∧ socket.name = name ∧ socket.name ≠ "" := by
  have hfound := List.find?_some h
  simp only [Bool.and_eq_true, bne_iff_ne, beq_iff_eq] at hfound
  exact ⟨List.mem_of_find?_eq_some h, hfound.2, hfound.1⟩

/-- Two inputs of a field for a vector of the point that is shaded are the same. -/
theorem eq_of_context (hs : s ∈ catalogue) (hdefault : (field, c) ∈ contextDefaults s.name)
    (h : s.input? name = some socket) (hfield : socket.field = field)
    (h' : s.input? name' = some socket') (hfield' : socket'.field = field) : name = name' := by
  obtain ⟨hmem, hname, -⟩ := Signature.of_input? h
  obtain ⟨hmem', hname', -⟩ := Signature.of_input? h'
  rw [← hname, ← hname']
  exact catalogue_contextInputs s hs _ hdefault _ hmem _ hmem' hfield hfield'

/-- Two inputs of a field are of one kind. -/
theorem kind_eq_of_input? (hs : s ∈ catalogue) (h : s.input? name = some socket)
    (h' : s.input? name' = some socket') (hfield : socket'.field = socket.field) :
    socket'.kind = socket.kind := by
  obtain ⟨hmem, -, hne⟩ := Signature.of_input? h
  obtain ⟨hmem', -, hne'⟩ := Signature.of_input? h'
  exact catalogue_aliases s hs _ hmem' _ hmem hne' hne hfield

/-- No vector of the point that is shaded stands in for the literal of a field that another input
links. -/
theorem Linked.lookup_eq_none (hs : s ∈ catalogue) (h : Linked node s name socket link)
    (hheld : Held node s name' socket' e) (hfield : socket'.field = socket.field) :
    (contextDefaults s.name).lookup socket.field = none := by
  cases hlookup : (contextDefaults s.name).lookup socket.field with
  | none => rfl
  | some c =>
    have hname := eq_of_context hs (Keyed.mem_of_lookup hlookup) h.socket rfl hheld.socket hfield
    subst hname
    exact absurd hheld h.not_held

/-! ## What is assigned -/

/-- A field with a link is read through one, unless a literal comes behind all of them. -/
theorem Linked.get?_of_not_overridden (hs : s ∈ catalogue) (h : Linked node s name socket link)
    (hlast : ¬ Overridden node s socket.field) :
    ∃ name' socket' link', Linked node s name' socket' link' ∧ socket'.field = socket.field ∧
      (nodeInvocation g naming nodeName node s slot).assignments.get? socket.field =
        some (readExpression g naming link' socket.kind) := by
  obtain ⟨last, input, e, hget, hoffer, hassigned, hbehind⟩ := h.exists_last g naming nodeName slot
  rcases linked_or_held_of_offer? hget hoffer with
    ⟨socket', link', hlinked, hfield, rfl⟩ | ⟨socket', hheld, hfield, hfree⟩
  · refine ⟨last, socket', link', hlinked, hfield, ?_⟩
    rw [hassigned, kind_eq_of_input? hs h.socket hlinked.socket hfield]
  · -- the literal of the last input comes behind all links
    refine absurd ⟨last, socket', e, hheld, hfield, fun name' socket'' link' hlinked hfield' => ?_⟩
      hlast
    by_contra hle
    obtain ⟨input', hget', -⟩ := hlinked.input
    have hne : last ≠ name' := by
      rintro rfl
      exact hlinked.not_held hheld
    have hnone := hbehind name' input' hget' (Keyed.lt_of_not_lt hle hne.symm)
    rw [← hfield', hlinked.offer?_eq hget'] at hnone
    cases hnone

/-- A literal that comes behind all links of a field replaces them. -/
theorem Linked.get?_of_overridden (hs : s ∈ catalogue) (h : Linked node s name socket link)
    (hlast : Overridden node s socket.field) :
    ∃ name' socket' e, Held node s name' socket' e ∧ socket'.field = socket.field ∧
      (nodeInvocation g naming nodeName node s slot).assignments.get? socket.field = some e := by
  obtain ⟨last, input, e, hget, hoffer, hassigned, hbehind⟩ := h.exists_last g naming nodeName slot
  rcases linked_or_held_of_offer? hget hoffer with
    ⟨socket', link', hlinked, hfield, rfl⟩ | ⟨socket', hheld, hfield, -⟩
  · obtain ⟨name', socket'', e, hheld, hfield', hall⟩ := hlast
    obtain ⟨input', _, hget', -⟩ := hheld.input
    have hnone := hbehind name' input' hget' (hall _ _ _ hlinked hfield)
    rw [← hfield', hheld.offer?_eq hget' (hfield' ▸ h.lookup_eq_none hs hheld hfield')] at hnone
    cases hnone
  · exact ⟨last, socket', e, hheld, hfield, hassigned⟩

/-- A field for a vector of the point that is shaded is read through the link of its input. -/
theorem Linked.get?_of_context (hs : s ∈ catalogue) (h : Linked node s name socket link)
    (hdefault : (socket.field, c) ∈ contextDefaults s.name) :
    (nodeInvocation g naming nodeName node s slot).assignments.get? socket.field =
      some (readExpression g naming link socket.kind) := by
  obtain ⟨last, input, e, hget, hoffer, hassigned, -⟩ := h.exists_last g naming nodeName slot
  rcases linked_or_held_of_offer? hget hoffer with
    ⟨socket', link', hlinked, hfield, rfl⟩ | ⟨socket', -, -, hfree⟩
  · have hname := eq_of_context hs hdefault h.socket rfl hlinked.socket hfield
    subst hname
    obtain ⟨rfl, rfl⟩ := h.unique hlinked
    exact hassigned
  · rw [lookup_contextDefaults hdefault] at hfree
    cases hfree

/-- Inputs have nothing for a field if and only if none is linked and none holds a literal for which
no vector of the point that is shaded stands in. -/
theorem findSome?_offer?_eq_none_iff :
    node.inputs.entries.reverse.findSome? (offer? g naming s field) = none ↔
      (∀ name socket link, Linked node s name socket link → socket.field ≠ field) ∧
        ((contextDefaults s.name).lookup field = none →
          ∀ name socket e, Held node s name socket e → socket.field ≠ field) := by
  rw [List.findSome?_eq_none_iff]
  constructor
  · intro hnone
    refine ⟨fun name socket link hlinked hfield => ?_,
      fun hfree name socket e hheld hfield => ?_⟩
    · obtain ⟨input, hget, -⟩ := hlinked.input
      have := hnone _ (List.mem_reverse.2 (Keyed.get?_eq_some_iff.1 hget))
      rw [← hfield, hlinked.offer?_eq hget] at this
      cases this
    · obtain ⟨input, _, hget, -⟩ := hheld.input
      have := hnone _ (List.mem_reverse.2 (Keyed.get?_eq_some_iff.1 hget))
      rw [← hfield, hheld.offer?_eq hget (hfield ▸ hfree)] at this
      cases this
  · rintro ⟨hlinked, hheld⟩ ⟨name, input⟩ hinput
    have hget := Keyed.get?_eq_some_iff.2 (List.mem_reverse.1 hinput)
    cases hoffer : offer? g naming s field (name, input) with
    | none => rfl
    | some e =>
      rcases linked_or_held_of_offer? hget hoffer with
        ⟨socket, link, h, hfield, -⟩ | ⟨socket, h, hfield, hfree⟩
      · exact absurd hfield (hlinked name socket link h)
      · exact absurd hfield (hheld hfree name socket e h)

/-- A field for a vector of the point that is shaded gets it if its input is not linked, whatever
the input holds. -/
theorem get?_of_context (hkernel : node.kernel.signature? = some s)
    (hdefault : (field, c) ∈ contextDefaults s.name)
    (hnone : ∀ name socket link, Linked node s name socket link → socket.field ≠ field) :
    (nodeInvocation g naming nodeName node s slot).assignments.get? field = some (.context c) := by
  have hlookup := lookup_contextDefaults hdefault
  have hinputs : node.inputs.entries.reverse.findSome? (offer? g naming s field) = none :=
    findSome?_offer?_eq_none_iff.2 ⟨hnone, fun hfree => by rw [hlookup] at hfree; cases hfree⟩
  have hrule : (Keyed.ofList (ruleAssignments node.kernel)).get? field = none := by
    cases hget : (Keyed.ofList (ruleAssignments node.kernel)).get? field with
    | none => rfl
    | some e =>
      obtain ⟨r, hr, hname, rfl, -⟩ := exists_ruleField hkernel (Keyed.mem_of_get?_ofList hget)
      exact absurd rfl (ruleFields_context r hr _ (hname ▸ hdefault))
  rw [get?_nodeInvocation, hinputs, hrule, hlookup]
  rfl

/-- Nothing is assigned to a field if and only if nothing has anything for it. -/
theorem get?_nodeInvocation_eq_none_iff :
    (nodeInvocation g naming nodeName node s slot).assignments.get? field = none ↔
      (∀ name socket link, Linked node s name socket link → socket.field ≠ field) ∧
      (∀ name socket e, Held node s name socket e → socket.field ≠ field) ∧
      (∀ c, (field, c) ∉ contextDefaults s.name) ∧
      (invocationOf node.kernel s slot).assignments.get? field = none := by
  rw [get?_nodeInvocation, Option.or_eq_none_iff, Option.or_eq_none_iff, Option.map_eq_none_iff,
    findSome?_offer?_eq_none_iff, assignments_invocationOf]
  have hdefaults : (contextDefaults s.name).lookup field = none ↔
      ∀ c, (field, c) ∉ contextDefaults s.name := by
    rw [Option.eq_none_iff_forall_ne_some]
    exact forall_congr' fun c => not_congr ⟨Keyed.mem_of_lookup, lookup_contextDefaults⟩
  rw [← hdefaults]
  tauto

end Candela.Shader
