import Candela.Proofs.Shader.Arguments
import Candela.Proofs.Shader.Fields
import Candela.Proofs.Shader.Stops

/-!
# Stored color ramps

A kernel that evaluates a color ramp has an array with room for a fixed number of stops, and is told
how many of them there are. The rule of ramps fills that array with the first stops of the sorted
ramp, and with unused ones up to the full number (`rampEntries`, `StoredRamp`). No link and no
literal of a graph reaches the array (`Function.CodeOf.get?_elements`), so the block of a ramp in a
function that is added stores what the rule gives it (`add_stores_ramps`).
-/

namespace Candela.Shader

open Candela.Graph (Node Kernel)
open Candela.Graph.Parameters (RampElement)

variable {g : Graph} {naming : String → String} {f : Function} {b : Block} {node : Node}
  {s : Signature} {slot : Nat} {elements : List RampElement} {entries : List String}

/-! ## Entries -/

/-- The text of an array of stops. -/
def rampArrayText (entries : List String) : String :=
  "array<RampElement, 32>(\n        " ++ ",\n        ".intercalate entries ++ "\n    )"

/-- The entries of the array that is filled for a ramp. -/
def rampEntries (elements : List RampElement) : List String :=
  (paddedStops (rampStops elements)).map rampElementText

/-- The stops of a ramp are stored by some entries. -/
structure StoredRamp (elements : List RampElement) (entries : List String) : Prop where
  /-- The array is full. -/
  full : entries.length = 32
  /-- Its first entries are the first stops of the sorted ramp. -/
  used : ∃ sorted, IsStableSort elements sorted ∧
    entries.take (min elements.length 32) =
      (sorted.take (min elements.length 32)).map fun e => rampElementText (some e)
  /-- The others are unused. -/
  unused : ∀ entry ∈ entries.drop (min elements.length 32), entry = "RampElement()"

theorem length_rampStops (elements : List RampElement) :
    (rampStops elements).length = min elements.length 32 := by
  rw [rampStops, List.length_take, List.length_mergeSort, maxRampElements, Nat.min_comm]

/-- The kept stops are as many first stops of the sorted ramp as fit. -/
theorem rampStops_eq_take {sorted : List RampElement} (h : IsStableSort elements sorted)
    (hstops : rampStops elements = sorted.take maxRampElements) :
    rampStops elements = sorted.take (min elements.length 32) := by
  rw [hstops, ← h.perm.length_eq, Nat.min_comm, ← List.take_take, List.take_length]
  rfl

/-- The entries are those of the kept stops, and then unused ones. -/
theorem rampEntries_eq (elements : List RampElement) :
    rampEntries elements = (rampStops elements).map (fun e => rampElementText (some e)) ++
      List.replicate (32 - min elements.length 32) "RampElement()" := by
  rw [rampEntries, paddedStops, List.map_append, List.map_map, List.map_replicate,
    length_rampStops]
  rfl

/-- The array of a ramp stores it. -/
theorem storedRamp_rampEntries (elements : List RampElement) :
    StoredRamp elements (rampEntries elements) := by
  have kept : ((rampStops elements).map fun e => rampElementText (some e)).length
      = min elements.length 32 := by rw [List.length_map, length_rampStops]
  refine ⟨?_, ?_, fun entry hentry => ?_⟩
  · rw [rampEntries, List.length_map, length_paddedStops, maxRampElements]
  · obtain ⟨sorted, hsorted, hstops⟩ := exists_isStableSort_rampStops elements
    refine ⟨sorted, hsorted, ?_⟩
    rw [rampEntries_eq, List.take_left' kept, rampStops_eq_take hsorted hstops]
  · rw [rampEntries_eq, List.drop_left' kept] at hentry
    exact List.eq_of_mem_replicate hentry

/-! ## The rule of ramps -/

/-- An invocation stores a ramp: it assigns the array of some entries, which store the ramp, and its
first argument is the number of stops. -/
structure Invocation.StoresRamp (i : Invocation Expression) (elements : List RampElement)
    (entries : List String) : Prop where
  stored : StoredRamp elements entries
  assigned : ∃ e, i.assignments.get? "elements" = some e ∧ e.text = rampArrayText entries
  count : i.arguments.head? = some (.int (min elements.length 32 : ℕ))

theorem text_ramp (elements : List RampElement) :
    (Expression.ramp (paddedStops (rampStops elements))).text =
      rampArrayText (rampEntries elements) := by
  have opening : "array<RampElement, " ++ toString maxRampElements ++ ">(\n        "
      = "array<RampElement, 32>(\n        " := by decide
  unfold Expression.text rampArrayText rampEntries
  rw [length_paddedStops, opening]

/-- A value of an option does not come before an argument. -/
theorem Invocation.head?_choose {ε : Type} {i : Invocation ε} {a : Argument}
    (h : i.arguments.head? = some a) (group requested : String) :
    (i.choose group requested).arguments.head? = some a := by
  rw [choose, choose?]
  cases i.signature.choice? group with
  | none => exact h
  | some c =>
    show (i.arguments ++ [_]).head? = some a
    rw [List.head?_append, h, Option.some_or]

/-- The rule of ramps stores them. -/
theorem storesRamp_invocationOf (p : Graph.Parameters.ColorRamp) (s : Signature) (slot : Nat) :
    (invocationOf (.colorRamp p) s slot).StoresRamp p.elements (rampEntries p.elements) where
  stored := storedRamp_rampEntries p.elements
  assigned := by
    refine ⟨_, ?_, text_ramp p.elements⟩
    rw [assignments_invocationOf]
    rfl
  count := by
    rw [← length_rampStops]
    exact Invocation.head?_choose rfl _ _

/-- A ramp is compiled, and stored. -/
theorem exists_invoke_colorRamp (p : Graph.Parameters.ColorRamp) (registry : Texture.Registry) :
    ∃ i, invoke (.colorRamp p) registry = .ok (i, registry) ∧
      i.StoresRamp p.elements (rampEntries p.elements) := by
  have native : ∃ s, (Kernel.colorRamp p).signature? = some s := by
    have found : (signature? "ColorRamp").isSome := by decide
    exact Option.isSome_iff_exists.1 found
  obtain ⟨s, hs⟩ := native
  refine ⟨invocationOf (.colorRamp p) s 0, ?_, storesRamp_invocationOf p s 0⟩
  unfold invoke
  rw [hs]
  rfl

/-! ## Blocks of ramps -/

/-- A block stores a ramp: all that it assigns to the array is that of some entries, which store the
ramp, and its call is told the number of stops. -/
structure Block.StoresRamp (b : Block) (elements : List RampElement) (entries : List String) :
    Prop where
  stored : StoredRamp elements entries
  assigned : ∃ e, b.AssignsOnce "elements" e ∧ e.text = rampArrayText entries
  count : b.invocation.arguments.head? = some (.int (min elements.length 32 : ℕ))
  called : Occurs ("ColorRamp_compute(&" ++ b.identifier ++ ", " ++
    toString (min elements.length 32) ++ "i, ") b.text

/-- The text of a block calls the kernel with the first argument behind the variable. -/
theorem Block.occurs_call {a : Argument} (h : b.invocation.arguments.head? = some a) :
    Occurs (b.invocation.signature.name ++ "_compute(&" ++ b.identifier ++ ", " ++
      a.text b.invocation.signature.name ++ ", ") b.text := by
  obtain ⟨rest, hrest⟩ := List.head?_eq_some_iff.1 h
  obtain ⟨next, others, hnext⟩ : ∃ next others,
      rest.map (Argument.text b.invocation.signature.name) ++ ["shading"] = next :: others := by
    cases rest <;> exact ⟨_, _, rfl⟩
  have arguments : ("&" ++ b.identifier) ::
      b.invocation.arguments.map (Argument.text b.invocation.signature.name) ++ ["shading"] =
        ("&" ++ b.identifier) :: a.text b.invocation.signature.name :: next :: others := by
    rw [hrest, ← hnext]
    rfl
  have opening : "_compute(&" = "_compute(" ++ "&" := by decide
  unfold Block.text Invocation.render
  dsimp only
  rw [arguments, String.intercalate_cons_cons, String.intercalate_cons_cons, opening]
  rw [@String.append_assoc _ "_compute(", @String.append_assoc _ b.invocation.signature.name]
  refine .append_right (.append_left ⟨"", ", ".intercalate (next :: others), ?_⟩ _) _
  simp only [String.append_assoc, String.empty_append]

/-- Graphs do not reach the array of a ramp. -/
theorem catalogue_elements : ∀ s ∈ catalogue, s.name = "ColorRamp" → ∀ a ∈ s.inputs,
    a.field = "elements" → a.kind.isRaw = true := by
  decide

/-- The kernel of a ramp. -/
theorem name_of_colorRamp {p : Graph.Parameters.ColorRamp}
    (h : (Kernel.colorRamp p).signature? = some s) : s.name = "ColorRamp" :=
  (Option.some.inj (mem_catalogue_of_signature? h).2).symm

namespace Function.CodeOf

variable {p : Graph.Parameters.ColorRamp}

/-- The array of a ramp is assigned by its rule. -/
theorem get?_elements (h : f.CodeOf g naming b node s slot) (hkernel : node.kernel = .colorRamp p) :
    b.invocation.assignments.get? "elements" =
      some (.ramp (paddedStops (rampStops p.elements))) := by
  have name : s.name = "ColorRamp" := name_of_colorRamp (hkernel ▸ h.kernel)
  -- an input that offered something for the array would be a socket of an explicit type
  have hidden : ∀ name socket, s.input? name = some socket → socket.field ≠ "elements" := by
    intro input socket hsocket hfield
    have raw := catalogue_elements s h.mem_catalogue name socket
      (Signature.of_input? hsocket).1 hfield
    rw [(mem_sockets_of_input? h.mem_catalogue hsocket).2] at raw
    cases raw
  have unreached : node.inputs.entries.reverse.findSome? (offer? g naming s "elements") = none :=
    findSome?_offer?_eq_none_iff.2
      ⟨fun input socket _ hlinked => hidden input socket hlinked.socket,
        fun _ input socket _ hheld => hidden input socket hheld.socket⟩
  rw [h.invocation, get?_nodeInvocation, unreached, hkernel]
  rfl

/-- The block of a ramp stores it. -/
theorem storesRamp (h : f.CodeOf g naming b node s slot) (hkernel : node.kernel = .colorRamp p) :
    b.StoresRamp p.elements (rampEntries p.elements) := by
  have name : s.name = "ColorRamp" := name_of_colorRamp (hkernel ▸ h.kernel)
  have rule := storesRamp_invocationOf p s slot
  have count : b.invocation.arguments.head? = some (.int (min p.elements.length 32 : ℕ)) := by
    rw [h.invocation, arguments_nodeInvocation, hkernel]
    exact rule.count
  have called : Occurs ("ColorRamp" ++ "_compute(&" ++ b.identifier ++ ", " ++
      (toString (min p.elements.length 32) ++ "i") ++ ", ") b.text := by
    have call := Block.occurs_call count
    rwa [h.signature, name] at call
  have opening : "ColorRamp" ++ "_compute(&" = "ColorRamp_compute(&" := by decide
  have ending : "i" ++ ", " = "i, " := by decide
  rw [opening, ← @String.append_assoc _ _ "i", @String.append_assoc _ "i", ending] at called
  exact ⟨rule.stored, ⟨_, Block.assignsOnce_of_get? (h.get?_elements hkernel), text_ramp _⟩, count,
    called⟩

end Function.CodeOf

/-- A function has a block of every node that it lists. -/
theorem Function.exists_block (f : Function) {names : List String} {name : String}
    (hnodes : [f].map Function.nodes = [names]) (hname : name ∈ names) :
    ∃ b ∈ f.blocks, b.node = name := by
  have listed : name ∈ f.nodes := List.singleton_inj.1 hnodes ▸ hname
  exact List.mem_map.1 listed

/-! ## Main result -/

namespace Library

/-- Whatever stops a ramp has, compiling it gives code that stores it, and so does every block of
the ramp in a function that is added to a library. -/
theorem add_stores_ramps (p : Graph.Parameters.ColorRamp) :
    (∀ registry, ∃ i, invoke (.colorRamp p) registry = .ok (i, registry) ∧
      i.StoresRamp p.elements (rampEntries p.elements)) ∧
    ∀ (requests : List Request) (title : String) (g : Graph) (role : Role) (i : Nat),
      ((after requests).add title g role).1 = .ok i →
      ∃ f : Function,
        ((after requests).add title g role).2.functions = (after requests).functions ++ [f] ∧
        ∀ b ∈ f.blocks, ∀ node, g.get? b.node = some node → node.kernel = .colorRamp p →
          b.StoresRamp p.elements (rampEntries p.elements) := by
  refine ⟨exists_invoke_colorRamp p, fun requests title g role i h => ?_⟩
  obtain ⟨f, naming, hfunctions, -, hblocks⟩ := exists_codeOf_of_add h
  refine ⟨f, hfunctions, fun b hb node hget hkernel => ?_⟩
  obtain ⟨node', s, slot, hcode⟩ := hblocks b hb
  cases hget.symm.trans hcode.get
  exact hcode.storesRamp hkernel

/-- A ramp with stops of one position, with both zeros and with infinite positions. -/
def uneven : Graph.Parameters.ColorRamp where
  elements := [⟨1, ⟨1, 0, 0, 1⟩⟩, ⟨Float32.ofBits 0x7F800000, ⟨0, 1, 0, 1⟩⟩, ⟨0, ⟨0, 0, 1, 1⟩⟩,
    ⟨-0, ⟨1, 1, 0, 1⟩⟩, ⟨1, ⟨0, 0, 0, 1⟩⟩, ⟨Float32.ofBits 0xFF800000, ⟨1, 1, 1, 1⟩⟩]

/-- A material that shows it. -/
def rainbow : Graph where
  nodes := .ofList
    [("Output", ⟨.outputMaterial, .ofList [fed "Surface" "Ramp" "Color"]⟩),
     ("Ramp", ⟨.colorRamp uneven, .ofList [fed "elements" "Output" "Color"]⟩)]

/-- The block of that ramp. -/
theorem stores_uneven : ((after []).add "Rainbow" rainbow .surface).1 = .ok 0 ∧
    ∃ f b, ((after []).add "Rainbow" rainbow .surface).2.functions = [f] ∧ b ∈ f.blocks ∧
      b.StoresRamp uneven.elements (rampEntries uneven.elements) := by
  have hadded : ((after []).add "Rainbow" rainbow .surface).1 = .ok 0 := by decide
  have hnodes : ((after []).add "Rainbow" rainbow .surface).2.functions.map Function.nodes =
      [["Ramp", "Output"]] := by decide
  have hnode : rainbow.get? "Ramp"
      = some ⟨.colorRamp uneven, .ofList [fed "elements" "Output" "Color"]⟩ := by
    simp only [Graph.get?, rainbow, Keyed.ofList, List.foldl_cons, List.foldl_nil,
      Keyed.get?_insert]
    rfl
  obtain ⟨f, hfunctions, hblocks⟩ :=
    (add_stores_ramps uneven).2 [] "Rainbow" rainbow .surface 0 hadded
  obtain ⟨b, hb, hname⟩ := f.exists_block (hfunctions ▸ hnodes) List.mem_cons_self
  exact ⟨hadded, f, b, hfunctions, hb, hblocks b hb _ (hname ▸ hnode) rfl⟩

end Library

end Candela.Shader
