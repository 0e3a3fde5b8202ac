import Candela.Proofs.Shader.Code

/-!
# Where assignments come from

A field of a node's struct is assigned by the rule of the node's type, through a link, from a
literal, or with a vector of the point that is shaded, and by nothing else (`Assigned`). The
variables that are read are therefore those of nodes that the node reads from (`Assigned.reads`).
-/

namespace Candela.Shader

open Candela.Graph (Node Input Link Kernel Literal)

variable {ε : Type} {g : Graph} {naming : String → String} {name field : String} {node : Node}
  {signature : Signature} {slot : Nat} {e : Expression}

/-! ## Assignments of the rules -/

namespace Invocation

@[simp] theorem assignments_ofSignature (signature : Signature) :
    (ofSignature signature : Invocation ε).assignments = .empty := rfl

@[simp] theorem assignments_assign (i : Invocation ε) (field : String) (e : ε) :
    (i.assign field e).assignments = i.assignments.insert field e := rfl

@[simp] theorem assignments_comment (i : Invocation ε) (text : String) :
    (i.comment text).assignments = i.assignments := rfl

@[simp] theorem assignments_argument (i : Invocation ε) (a : Argument) :
    (i.argument a).assignments = i.assignments := rfl

@[simp] theorem assignments_choose (i : Invocation ε) (group requested : String) :
    (i.choose group requested).assignments = i.assignments := by
  rw [choose, choose?]
  cases i.signature.choice? group <;> rfl

/-- Assigning expressions one after another puts them into the map of assignments. -/
theorem assignments_assignAll (i : Invocation ε) (l : List (String × ε)) :
    (i.assignAll l).assignments = l.foldl (fun m e => m.insert e.1 e.2) i.assignments := by
  induction l generalizing i with
  | nil => rfl
  | cons e rest ih => exact ih (i.assign e.1 e.2)

end Invocation

theorem assignDefaults_cons (field : String) (c : Context) (rest : List (String × Context))
    (i : Invocation Expression) :
    assignDefaults ((field, c) :: rest) i =
      assignDefaults rest
        (if i.assignments.contains field then i else i.assign field (.context c)) := rfl

@[simp] theorem signature_assignDefaults (defaults : List (String × Context))
    (i : Invocation Expression) : (assignDefaults defaults i).signature = i.signature := by
  induction defaults generalizing i with
  | nil => rfl
  | cons first rest ih =>
    rw [assignDefaults_cons, ih]
    split <;> rfl

/-- A node's invocation is that of its kernel. -/
theorem signature_nodeInvocation :
    (nodeInvocation g naming name node signature slot).signature = signature := by
  simp [nodeInvocation, inputInvocation]

/-- A default is assigned to a field to which nothing else is. -/
theorem get?_assignDefaults (defaults : List (String × Context)) (i : Invocation Expression)
    (field : String) :
    (assignDefaults defaults i).assignments.get? field =
      (i.assignments.get? field).or ((defaults.lookup field).map .context) := by
  induction defaults generalizing i with
  | nil => rw [List.lookup_nil, Option.map_none, Option.or_none]; rfl
  | cons first rest ih =>
    obtain ⟨key, c⟩ := first
    rw [assignDefaults_cons, ih, Keyed.lookup_cons_eq]
    by_cases hfield : field = key
    · subst hfield
      rw [if_pos rfl]
      split
      · next hassigned =>
        obtain ⟨e, he⟩ := Option.isSome_iff_exists.1 hassigned
        rw [he]
        rfl
      · next hfree =>
        have hnone : i.assignments.get? field = none := by simpa [Keyed.contains] using hfree
        rw [Invocation.assignments_assign, Keyed.get?_insert, if_pos rfl, hnone]
        rfl
    · rw [if_neg hfield]
      split
      · rfl
      · rw [Invocation.assignments_assign, Keyed.get?_insert, if_neg hfield]

/-- What the rule of a node type assigns, whatever the node is linked to. -/
def ruleAssignments : Kernel → List (String × Expression)
  | .texSky p => [("data", .numbers (skyOf p).1.sunData), ("scale", .number (skyOf p).2)]
  | .colorRamp p => [("elements", .ramp (paddedStops (rampStops p.elements)))]
  | .value p => [("value", .constant (.splat p.value))]
  | .rgb p => [("color", .constant p.value)]
  | _ => []

/-- The invocation of a node type assigns what its rule assigns. -/
theorem assignments_invocationOf (k : Kernel) (signature : Signature) (slot : Nat) :
    (invocationOf k signature slot).assignments = .ofList (ruleAssignments k) := by
  cases k <;> simp [invocationOf, ruleAssignments, Keyed.ofList]

/-! ## The origin of an assignment -/

/-- Where an assignment to a field of a node's struct comes from. -/
inductive Assigned (g : Graph) (naming : String → String) (node : Node) (signature : Signature)
    (field : String) : Expression → Prop where
  /-- The rule of the node's type assigns it. -/
  | rule {e : Expression}
      (hrule : (Keyed.ofList (ruleAssignments node.kernel)).get? field = some e) :
      Assigned g naming node signature field e
  /-- An input that the kernel uses is linked. -/
  | link {input : String × Input} {socket : Socket} {link : Link}
      (hinput : input ∈ node.inputs.entries) (hsocket : signature.input? input.1 = some socket)
      (hfield : socket.field = field) (hlink : input.2.links.head? = some link) :
      Assigned g naming node signature field (readExpression g naming link socket.kind)
  /-- An input that the kernel uses has a literal. -/
  | literal {input : String} {socket : Socket} {value : Literal} {e : Expression}
      (hsocket : signature.input? input = some socket) (hfield : socket.field = field)
      (hvalue : Expression.ofLiteral? value socket.kind = some e) :
      Assigned g naming node signature field e
  /-- The kernel takes it from the point that is shaded. -/
  | context {c : Context} (hdefault : (field, c) ∈ contextDefaults signature.name) :
      Assigned g naming node signature field (.context c)

/-- What an input assigns comes from its link or from its literal. -/
theorem Assigned.of_input {input : String × Input} (hinput : input ∈ node.inputs.entries)
    (h : inputAssignment? g naming signature input = some (field, e)) :
    Assigned g naming node signature field e := by
  unfold inputAssignment? at h
  split at h
  · cases h
  · next socket link hsocket hlink =>
    cases h
    exact .link hinput hsocket rfl hlink
  · next socket hsocket hlink =>
    split at h
    · cases h
    · obtain ⟨e', he', heq⟩ := Option.map_eq_some_iff.1 h
      cases heq
      obtain ⟨value, -, hvalue⟩ := Option.bind_eq_some_iff.1 he'
      exact .literal hsocket rfl hvalue

/-- There is nothing else that a node's invocation assigns. -/
theorem assigned_of_get?
    (h : (nodeInvocation g naming name node signature slot).assignments.get? field = some e) :
    Assigned g naming node signature field e := by
  rw [nodeInvocation, get?_assignDefaults, Option.or_eq_some_iff] at h
  rcases h with h | ⟨-, h⟩
  · rw [inputInvocation, Invocation.assignments_assignAll] at h
    rcases Keyed.get?_foldl_insert h with h | h
    · rw [Invocation.assignments_comment, assignments_invocationOf] at h
      exact .rule h
    · obtain ⟨input, hinput, h⟩ := List.mem_filterMap.1 h
      exact .of_input hinput h
  · obtain ⟨c, hdefault, rfl⟩ := Option.map_eq_some_iff.1 h
    exact .context (Keyed.mem_of_lookup hdefault)

/-! ## Variables -/

/-- The variables that an expression reads. -/
def Expression.reads : Expression → List String
  | .field identifier _ => [identifier]
  | .colorFromFloat e | .floatFromColor e | .floatFromVector e | .closureFromData e => e.reads
  | _ => []

@[simp] theorem Expression.reads_absent (target : FieldKind) :
    (Expression.absent target).reads = [] := by
  cases target <;> rfl

/-- Converting an expression reads no other variables. -/
theorem Expression.reads_convert (source target : FieldKind) (e : Expression) :
    (Expression.convert source target e).reads ⊆ e.reads := by
  cases source <;> cases target <;> simp [convert, reads, absent]

/-- A literal reads no variables. -/
theorem Expression.reads_ofLiteral? {value : Literal} {target : FieldKind}
    (h : Expression.ofLiteral? value target = some e) : e.reads = [] := by
  unfold ofLiteral? at h
  split at h
  · split at h <;> cases h <;> rfl
  · cases h
    rfl
  · cases h
    rfl
  · cases h
  · cases h

/-- The rules read no variables. -/
theorem reads_of_mem_ruleAssignments {k : Kernel} (h : (field, e) ∈ ruleAssignments k) :
    e.reads = [] := by
  unfold ruleAssignments at h
  split at h <;> simp only [List.mem_cons, List.not_mem_nil, or_false, Prod.mk.injEq] at h
  · rcases h with ⟨-, rfl⟩ | ⟨-, rfl⟩ <;> rfl
  all_goals
    obtain ⟨-, rfl⟩ := h
    rfl

/-- What is read are the variables of nodes that the node reads from. -/
theorem Assigned.reads {v : String} (h : Assigned g naming node signature field e)
    (hget : g.get? name = some node) (hkernel : node.kernel.signature? = some signature)
    (hv : v ∈ e.reads) : ∃ source, g.Reads name source ∧ v = naming source := by
  cases h with
  | rule hrule =>
    rw [reads_of_mem_ruleAssignments (Keyed.mem_of_get?_ofList hrule)] at hv
    cases hv
  | @link input socket link hinput hsocket _ hlink =>
    refine ⟨link.node, ⟨node, signature, hget, hkernel, input, hinput, by simp [hsocket], link,
      hlink, rfl⟩, ?_⟩
    unfold readExpression at hv
    split at hv
    · rw [Expression.reads_absent] at hv
      cases hv
    · exact List.mem_singleton.1 (Expression.reads_convert _ _ _ hv)
  | literal _ _ hvalue =>
    rw [Expression.reads_ofLiteral? hvalue] at hv
    cases hv
  | context => cases hv

end Candela.Shader
