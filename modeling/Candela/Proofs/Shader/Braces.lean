import Candela.Proofs.Shader.Comments
import Candela.Proofs.Shader.Library
import Candela.Proofs.Shader.Literals
import Candela.Proofs.Shader.Typing
import Candela.Proofs.Text.Names

/-!
# Code of nodes has no braces

Where a function begins and ends is told by its braces, so nothing that is written for a node may
hold one. The names that the catalogue lists have none, the variables of nodes are snake identifiers
with a number (`braceless_fresh`), numbers are digits, a point, signs and an exponent, and everything
else is put together from these (`CodeOf.braceless`). Comments may hold anything, which is why this
is about code without comments.
-/

namespace Candela.Shader

open Candela.Graph (Node Input Link Kernel Literal)

variable {ε : Type} {g : Graph} {name field a b text identifier : String} {c : Char} {e : Expression}
  {signature : Signature} {slot : Nat} {node : Node} {naming : String → String} {p q : Progress}

/-! ## Texts without braces -/

/-- Whether a character is a brace. -/
def isBrace (c : Char) : Bool := c == '\x7b' || c == '\x7d'

/-- A text without braces. -/
def Braceless (text : String) : Prop := ∀ c ∈ text.toList, isBrace c = false

-- The instance is named because the one that is found otherwise may go through all characters.
instance (text : String) : Decidable (Braceless text) :=
  List.decidableBAll (fun c => isBrace c = false) text.toList

/-- A character of some kind is no brace if braces are not of this kind. -/
theorem isBrace_eq_false {kind : Char → Bool} (h : kind c = true)
    (hkind : kind '\x7b' = false ∧ kind '\x7d' = false) : isBrace c = false := by
  by_contra hbrace
  rw [Bool.not_eq_false, isBrace, Bool.or_eq_true, beq_iff_eq, beq_iff_eq] at hbrace
  rcases hbrace with rfl | rfl
  · rw [hkind.1] at h
    cases h
  · rw [hkind.2] at h
    cases h

namespace Braceless

@[simp] theorem append_iff : Braceless (a ++ b) ↔ Braceless a ∧ Braceless b := by
  unfold Braceless
  rw [String.toList_append]
  exact List.forall_mem_append

theorem append (ha : Braceless a) (hb : Braceless b) : Braceless (a ++ b) :=
  append_iff.2 ⟨ha, hb⟩

theorem join {parts : List String} (h : ∀ part ∈ parts, Braceless part) :
    Braceless (String.join parts) := by
  intro c hc
  rw [String.toList_join] at hc
  obtain ⟨part, hpart, hc⟩ := List.mem_flatMap.1 hc
  exact h part hpart c hc

theorem intercalate {separator : String} {parts : List String} (hseparator : Braceless separator)
    (h : ∀ part ∈ parts, Braceless part) : Braceless (separator.intercalate parts) := by
  induction parts with
  | nil => exact fun c hc => nomatch hc
  | cons part rest ih =>
    obtain ⟨hpart, hrest⟩ := List.forall_mem_cons.1 h
    cases rest with
    | nil => rwa [String.intercalate_singleton]
    | cons next rest =>
      rw [String.intercalate_cons_cons]
      exact (hpart.append hseparator).append (ih hrest)

end Braceless

/-- Whether all bytes of a text are below those of braces. Bytes are evaluated faster than
characters. -/
def belowBraces (text : String) : Bool := text.toByteArray.data.toList.all (· < 0x7b)

theorem Braceless.of_belowBraces (h : belowBraces text = true) : Braceless text := by
  intro c hc
  have bytes : text.toByteArray.data.toList = text.toList.flatMap String.utf8EncodeChar := by
    rw [← String.utf8Encode_toList, List.utf8Encode, List.data_toByteArray]
  rw [belowBraces, bytes, List.all_eq_true] at h
  by_contra hbrace
  rw [Bool.not_eq_false, isBrace, Bool.or_eq_true, beq_iff_eq, beq_iff_eq] at hbrace
  rcases hbrace with rfl | rfl
  · exact absurd (h 0x7b (List.mem_flatMap.2 ⟨_, hc, by decide⟩)) (by decide)
  · exact absurd (h 0x7d (List.mem_flatMap.2 ⟨_, hc, by decide⟩)) (by decide)

/-! ## Numbers -/

/-- The digits of a count. -/
theorem braceless_toString (n : Nat) : Braceless (toString n) := by
  intro c hc
  rw [Nat.toString_eq_ofList_toDigits, String.toList_ofList] at hc
  exact isBrace_eq_false (Nat.isDigit_of_mem_toDigits (by decide) (by decide) hc) (by decide)

/-- The digits of a whole number and its sign. -/
theorem braceless_toString_int (n : Int) : Braceless (toString n) := by
  cases n with
  | ofNat n => exact braceless_toString n
  | negSucc n =>
    show Braceless ("-" ++ toString (n + 1))
    exact .append (by decide) (braceless_toString (n + 1))

/-- The literal of a number. -/
theorem braceless_numberText (x : Float32) : Braceless (numberText x) := fun c hc =>
  isBrace_eq_false (isNumeric_of_mem_numberText x c hc) (by decide)

/-- The literal of a vector. -/
theorem braceless_vec4Text (v : Vec4 Float32) : Braceless (vec4Text v) := by
  have hnumbers : ∀ part ∈ v.toList.map numberText, Braceless part := by
    intro part hpart
    obtain ⟨x, -, rfl⟩ := List.mem_map.1 hpart
    exact braceless_numberText x
  have hjoined : Braceless (", ".intercalate (v.toList.map numberText)) :=
    .intercalate (by decide) hnumbers
  unfold vec4Text
  simp +decide only [Braceless.append_iff, hjoined]

/-! ## Expressions -/

/-- The call of a function whose name has no braces. -/
theorem braceless_call {f : Helper} (hf : Braceless f.name) {arguments : List String}
    (h : ∀ argument ∈ arguments, Braceless argument) : Braceless (f.call arguments) := by
  have hjoined : Braceless (", ".intercalate arguments) := .intercalate (by decide) h
  unfold Helper.call
  simp +decide only [Braceless.append_iff, hf, hjoined]

namespace Expression

theorem braceless_absent (target : FieldKind) : Braceless (absent target).text := by
  cases target with
  | shader => exact braceless_call (by decide) fun _ h => nomatch h
  | _ =>
    unfold absent text
    decide

/-- Converting an expression calls a function of the library on it. -/
theorem braceless_convert (source target : FieldKind) (h : Braceless e.text) :
    Braceless (convert source target e).text := by
  have hcall : ∀ {f : Helper}, Braceless f.name → Braceless (f.call [e.text]) := by
    intro f hf
    exact braceless_call hf fun argument hargument => List.mem_singleton.1 hargument ▸ h
  unfold convert
  split
  · exact h
  · exact braceless_absent _
  · exact hcall (by decide)
  · exact hcall (by decide)
  · exact hcall (by decide)
  · exact hcall (by decide)
  · exact hcall (by decide)
  · exact h

theorem braceless_ofLiteral? {value : Literal} {target : FieldKind}
    (h : ofLiteral? value target = some e) : Braceless e.text := by
  unfold ofLiteral? at h
  split at h
  · split at h <;> cases h <;> exact braceless_vec4Text _
  · cases h
    exact braceless_vec4Text _
  · cases h
    exact braceless_vec4Text _
  · cases h
  · cases h

/-- A block of numbers. -/
theorem braceless_numbers (xs : List Float32) : Braceless (numbers xs).text := by
  have hnumbers : ∀ part ∈ xs.map numberText, Braceless part := by
    intro part hpart
    obtain ⟨x, -, rfl⟩ := List.mem_map.1 hpart
    exact braceless_numberText x
  have hjoined : Braceless (", ".intercalate (xs.map numberText)) :=
    .intercalate (by decide) hnumbers
  unfold text
  simp +decide only [Braceless.append_iff, braceless_toString, hjoined]

/-- The stops of a color ramp. -/
theorem braceless_ramp (stops : List (Option Graph.Parameters.RampElement)) :
    Braceless (ramp stops).text := by
  have hstops : ∀ part ∈ stops.map rampElementText, Braceless part := by
    intro part hpart
    obtain ⟨stop, -, rfl⟩ := List.mem_map.1 hpart
    cases stop with
    | none => decide
    | some stop =>
      unfold rampElementText
      simp +decide only [Braceless.append_iff, braceless_numberText, braceless_vec4Text]
  have hjoined : Braceless (",\n        ".intercalate (stops.map rampElementText)) :=
    .intercalate (by decide) hstops
  unfold text
  simp +decide only [Braceless.append_iff, braceless_toString, hjoined]

end Expression

/-! ## Assignments -/

/-- The names that the catalogue lists have no braces. -/
theorem catalogue_braceless : ∀ s ∈ catalogue, Braceless s.name ∧
    (∀ a ∈ s.sockets, Braceless a.field) ∧ (∀ c ∈ s.choices, Braceless c.group) ∧
    ∀ d ∈ contextDefaults s.name, Braceless d.1 := by
  have below : ∀ s ∈ catalogue, belowBraces s.name ∧
      (∀ a ∈ s.sockets, belowBraces a.field) ∧ (∀ c ∈ s.choices, belowBraces c.group) ∧
      ∀ d ∈ contextDefaults s.name, belowBraces d.1 := by decide +kernel
  intro s hs
  obtain ⟨name, sockets, choices, defaults⟩ := below s hs
  exact ⟨.of_belowBraces name, fun a ha => .of_belowBraces (sockets a ha),
    fun c hc => .of_belowBraces (choices c hc), fun d hd => .of_belowBraces (defaults d hd)⟩

/-- What the rule of a node type assigns. -/
theorem braceless_of_mem_ruleAssignments {k : Kernel} (h : (field, e) ∈ ruleAssignments k) :
    Braceless field ∧ Braceless e.text := by
  unfold ruleAssignments at h
  split at h <;> simp only [List.mem_cons, List.not_mem_nil, or_false, Prod.mk.injEq] at h
  · rcases h with ⟨rfl, rfl⟩ | ⟨rfl, rfl⟩
    · exact ⟨by decide, Expression.braceless_numbers _⟩
    · exact ⟨by decide, braceless_numberText _⟩
  · obtain ⟨rfl, rfl⟩ := h
    exact ⟨by decide, Expression.braceless_ramp _⟩
  all_goals
    obtain ⟨rfl, rfl⟩ := h
    exact ⟨by decide, braceless_vec4Text _⟩

/-- What is read through a link. -/
theorem braceless_readExpression (hnaming : ∀ name, Braceless (naming name)) (link : Link)
    (target : FieldKind) : Braceless (readExpression g naming link target).text := by
  unfold readExpression
  split
  · exact Expression.braceless_absent target
  · next socket hsource =>
    obtain ⟨node, -, hsignature⟩ := Option.bind_eq_some_iff.1 hsource
    obtain ⟨signature, hkernel, houtput⟩ := Option.bind_eq_some_iff.1 hsignature
    have hmem := (mem_catalogue_of_signature? hkernel).1
    have hfield := (catalogue_braceless signature hmem).2.1 socket
      (mem_sockets_of_output? hmem houtput).1
    exact Expression.braceless_convert _ _ (.append (.append (hnaming _) (by decide)) hfield)

/-- An assignment has no braces, wherever it comes from. -/
theorem Assigned.braceless (h : Assigned g naming node signature field e)
    (hmem : signature ∈ catalogue) (hnaming : ∀ name, Braceless (naming name)) :
    Braceless field ∧ Braceless e.text := by
  obtain ⟨-, hsockets, -, hdefaults⟩ := catalogue_braceless signature hmem
  cases h with
  | rule hrule => exact braceless_of_mem_ruleAssignments (Keyed.mem_of_get?_ofList hrule)
  | @link input socket link _ hsocket hfield _ =>
    exact ⟨hfield ▸ hsockets socket (mem_sockets_of_input? hmem hsocket).1,
      braceless_readExpression hnaming link socket.kind⟩
  | @literal input socket value e hsocket hfield hvalue =>
    exact ⟨hfield ▸ hsockets socket (mem_sockets_of_input? hmem hsocket).1,
      Expression.braceless_ofLiteral? hvalue⟩
  | @context c hdefault =>
    refine ⟨hdefaults _ hdefault, ?_⟩
    cases c <;> decide

/-! ## Arguments -/

namespace Invocation

/-- The values of options among the arguments are of options that the kernel has. -/
def Offered (i : Invocation ε) : Prop :=
  ∀ group value, .choice group value ∈ i.arguments → ∃ c ∈ i.signature.choices, c.group = group

theorem offered_ofSignature (signature : Signature) :
    (ofSignature signature : Invocation ε).Offered := fun _ _ h => nomatch h

@[simp] theorem offered_assign (i : Invocation ε) (field : String) (e : ε) :
    (i.assign field e).Offered ↔ i.Offered := Iff.rfl

@[simp] theorem offered_comment (i : Invocation ε) (text : String) :
    (i.comment text).Offered ↔ i.Offered := Iff.rfl

@[simp] theorem offered_argument (i : Invocation ε) (a : Argument) :
    (i.argument a).Offered ↔ i.Offered ∧
      ∀ group value, a = .choice group value → ∃ c ∈ i.signature.choices, c.group = group := by
  constructor
  · intro h
    refine ⟨fun group value hmem => h group value (List.mem_append_left _ hmem), ?_⟩
    rintro group value rfl
    exact h group value (List.mem_append_right _ (List.mem_singleton_self _))
  · rintro ⟨h, ha⟩ group value hmem
    rcases List.mem_append.1 hmem with hmem | hmem
    · exact h group value hmem
    · exact ha group value (List.mem_singleton.1 hmem).symm

@[simp] theorem offered_choose (i : Invocation ε) (group requested : String) :
    (i.choose group requested).Offered ↔ i.Offered := by
  rw [choose, choose?]
  cases hchoice : i.signature.choice? group with
  | none => rfl
  | some c =>
    have hc : c ∈ i.signature.choices ∧ c.group = group :=
      ⟨List.mem_of_find?_eq_some hchoice, by simpa using List.find?_some hchoice⟩
    show (i.argument (.choice group (c.select requested))).Offered ↔ i.Offered
    rw [offered_argument, and_iff_left]
    rintro group' value ⟨⟩
    exact ⟨c, hc⟩

end Invocation

/-- The rules of node types only choose among options that their kernels have. -/
theorem offered_invocationOf (k : Kernel) (signature : Signature) (slot : Nat) :
    (invocationOf k signature slot).Offered := by
  have h : (Invocation.ofSignature signature : Invocation Expression).Offered :=
    Invocation.offered_ofSignature signature
  cases k <;> simp [invocationOf, h]

/-- The name of a value of an option, as it stands in a constant. -/
theorem braceless_sanitize (text : String) : Braceless (Text.sanitize text) := by
  intro c hc
  rw [Text.sanitize, String.toList_ofList] at hc
  obtain ⟨d, -, rfl⟩ := List.mem_map.1 hc
  split
  · next hword =>
    let kind : Char → Bool := fun c => Text.isWordChar c || c == '_'
    have hkind : kind d = true := hword
    exact isBrace_eq_false hkind (by decide)
  · decide

/-- The arguments of a node's call. -/
theorem braceless_argument {k : Kernel} {argument : Argument} (hmem : signature ∈ catalogue)
    (h : argument ∈ (invocationOf k signature slot).arguments) :
    Braceless (argument.text signature.name) := by
  obtain ⟨hname, -, hgroups, -⟩ := catalogue_braceless signature hmem
  cases argument with
  | slot n => exact .append (braceless_toString n) (by decide)
  | int n => exact .append (braceless_toString_int n) (by decide)
  | bool b =>
    cases b with
    | false => exact (by decide : Braceless "false")
    | true => exact (by decide : Braceless "true")
  | choice group value =>
    obtain ⟨c, hc, hgroup⟩ := offered_invocationOf k signature slot group value h
    rw [signature_invocationOf] at hc
    have hgroup' : Braceless group := hgroup ▸ hgroups c hc
    unfold Argument.text choiceConstant
    simp +decide only [Braceless.append_iff, hname, hgroup', braceless_sanitize]
  | pixelFormat n => exact .append (.append (by decide) (braceless_toString n)) (by decide)
  | constant constant => exact absurd h (constant_notMem_arguments k constant)

/-! ## Blocks -/

/-- The code of an invocation that is made of texts without braces. -/
theorem Invocation.braceless_render {i : Invocation Expression} (hcomments : i.comments = [])
    (hidentifier : Braceless identifier) (hname : Braceless i.signature.name)
    (harguments : ∀ a ∈ i.arguments, Braceless (a.text i.signature.name))
    (hassignments : ∀ f ∈ i.assignments.entries, Braceless f.1 ∧ Braceless f.2.text) :
    Braceless (i.render Expression.text identifier) := by
  have hassigned : Braceless (String.join (i.assignments.entries.map fun f =>
      assignmentText identifier f.1 f.2.text)) := by
    refine .join fun part hpart => ?_
    obtain ⟨f, hf, rfl⟩ := List.mem_map.1 hpart
    obtain ⟨hfield, hexpression⟩ := hassignments f hf
    unfold assignmentText
    simp +decide only [Braceless.append_iff, hidentifier, hfield, hexpression]
  have hcall : Braceless (", ".intercalate (("&" ++ identifier) ::
      i.arguments.map (Argument.text i.signature.name) ++ ["shading"])) := by
    refine .intercalate (by decide) fun part hpart => ?_
    simp only [List.cons_append, List.mem_cons, List.mem_append, List.mem_map, List.not_mem_nil,
      or_false] at hpart
    rcases hpart with rfl | ⟨a, ha, rfl⟩ | rfl
    · exact .append (by decide) hidentifier
    · exact harguments a ha
    · decide
  have hnone : Braceless (String.join (i.comments.map commentText)) := by
    rw [hcomments]
    decide
  unfold render
  simp +decide only [Braceless.append_iff, hnone, hidentifier, hname, hassigned, hcall]

/-- The variables that a walk has given to nodes have no braces. -/
def Progress.Plain (p : Progress) : Prop :=
  ∀ name v, p.identifiers.get? name = some v → Braceless v

theorem Progress.Plain.braceless_naming (h : p.Plain) (name : String) :
    Braceless (p.naming name) := by
  unfold Progress.naming
  cases hget : p.identifiers.get? name with
  | none => decide
  | some v => exact h name v hget

/-- The code of a node has no braces. -/
theorem CodeOf.braceless {b : Block} (h : CodeOf g q b node signature slot) (hq : q.Plain) :
    Braceless b.code := by
  have hmem := (mem_catalogue_of_signature? h.kernel).1
  have hsignature : b.invocation.silent.signature = signature := by
    show b.invocation.signature = signature
    rw [h.invocation, signature_nodeInvocation]
  unfold Block.code
  refine Invocation.braceless_render rfl (hq _ _ h.identifier) ?_ ?_ ?_
  · rw [hsignature]
    exact (catalogue_braceless signature hmem).1
  · intro a ha
    have ha' : a ∈ b.invocation.arguments := ha
    rw [h.invocation, arguments_nodeInvocation] at ha'
    rw [hsignature]
    exact braceless_argument hmem ha'
  · intro f hf
    have hget : b.invocation.assignments.get? f.1 = some f.2 := Keyed.get?_eq_some_iff.2 hf
    rw [h.invocation] at hget
    exact (assigned_of_get? hget).braceless hmem hq.braceless_naming

/-! ## Variables -/

/-- The variable of a node has no braces. -/
theorem braceless_fresh (taken : List String) (name : String) :
    Braceless (Text.fresh taken ("n_" ++ Text.snake name) "_") := by
  obtain ⟨rest, heq, hrest⟩ := Text.exists_fresh_append "n_" "_" (by decide) taken name
  rw [heq, Braceless.append_iff]
  exact ⟨by decide, fun c hc => isBrace_eq_false (hrest c hc) (by decide)⟩

/-- The code of every function is that of blocks without braces. -/
theorem Library.after_braceless (requests : List Request) :
    ∀ f ∈ (after requests).functions, ∀ b ∈ f.blocks, Braceless b.code :=
  after_blocks braceless_fresh (fun hcode hvariables => hcode.braceless hvariables) requests

end Candela.Shader
