import Candela.Proofs.Shader.Answers

/-!
# What an error says

Every error of the compiler names a node of the graph, and something that is amiss with it: `Blames`
spells out what each error says, in terms of names, links and what is reached, without the walk that
has met the defect. That a node which is met again while its inputs are being walked lies on a cycle
is carried by the induction over the walk (`emitNode_meets`); here each defect is read as what its
error says (`Defect.blames`). As every error is one of a defect, a graph with which nothing but
cycles is amiss is refused for a cycle (`Addition.exists_cycle`).
-/

namespace Candela.Shader

open Candela.Graph (Node Kernel)

variable {g : Graph} {registry : Texture.Registry} {out : String} {e : Error}

/-- The tag under which a node type without a kernel is reported: its own, or that of skies together
with the type of the sky. -/
inductive Refused : Kernel → String → Prop where
  /-- No kernel implements the type. -/
  | type {k : Kernel} (hkernel : capability k = .unsupported) (hsky : ∀ p, k ≠ .texSky p) :
      Refused k k.tag
  /-- No kernel implements this type of sky. -/
  | sky {p : Graph.Parameters.TexSky} (hkernel : capability (.texSky p) = .unsupported)
      (hnishita : p.skyType ≠ "NISHITA") (hhosek : p.skyType ≠ "HOSEK_WILKIE") :
      Refused (.texSky p) ("TEX_SKY (" ++ p.skyType ++ ")")

/-- What an error says of a graph, of its output and of the textures that have slots already. -/
def Blames (g : Graph) (registry : Texture.Registry) (out : String) : Error → Prop
  | .cycleDetected name => g.Reaches out name ∧ g.OnCycle name
  | .multiInputDetected name input =>
    g.Reaches out name ∧ ∃ node i, g.get? name = some node ∧
      node.inputs.get? input = some i ∧ 2 ≤ i.links.length
  | .missingNode name =>
    g.get? name = none ∧ ∃ reader, g.Reaches out reader ∧ g.Reads reader name
  | .unsupportedKernel tag =>
    ∃ name node, g.Reaches out name ∧ g.get? name = some node ∧ Refused node.kernel tag
  | e => e = Texture.Registry.full ∧ 16 < (neededKeys g registry out).encard

/-- Nothing is amiss with a graph, except that a reached node lies on a cycle. -/
structure OnlyCyclic (g : Graph) (registry : Texture.Registry) (out : String) : Prop where
  /-- Every reached name is that of a node with a kernel. -/
  supported : ∀ name, g.Reaches out name →
    ∃ node, g.get? name = some node ∧ capability node.kernel ≠ .unsupported
  /-- No input of a reached node has more than one link. -/
  single : ∀ name node, g.Reaches out name → g.get? name = some node →
    ∀ input ∈ node.inputs.entries, input.2.links.length ≤ 1
  /-- The textures have no more than sixteen identities. -/
  textures : (neededKeys g registry out).encard ≤ 16
  /-- A reached node reads, in some number of steps, from itself. -/
  cyclic : ∃ name, g.Reaches out name ∧ g.OnCycle name

/-- A node type without a kernel is reported under its tag. -/
theorem refused_of_unsupported {k : Kernel} (h : capability k = .unsupported) :
    Refused k (unsupportedTag k) := by
  unfold unsupportedTag
  split
  · next p =>
    -- the two types of sky that are known have a kernel
    refine .sky h (fun htype => ?_) fun htype => ?_ <;>
    · rw [capability_eq_unsupported_iff, Kernel.signature?, Kernel.implementation?] at h
      simp only [htype, or_true, true_or, if_true] at h
      exact absurd h (by decide +kernel)
  · next hsky => exact .type h hsky

/-- The error of a defect says what the defect is. -/
theorem Defect.blames (h : Defect g registry out e) : Blames g registry out e := by
  cases h with
  | cycle hreach hcycle => exact ⟨hreach, hcycle⟩
  | links hreach hget hinput hlinks =>
    exact ⟨hreach, _, _, hget, Keyed.get?_eq_some_iff.2 hinput, hlinks⟩
  | missing hreach hreads hget => exact ⟨hget, _, hreach, hreads⟩
  | unsupported hreach hget hkernel =>
    exact ⟨_, _, hreach, hget, refused_of_unsupported hkernel⟩
  | textures hmany => exact ⟨rfl, hmany⟩

/-- Cycles are the only defect of a graph with which nothing else is amiss. -/
theorem OnlyCyclic.exists_cycle (h : OnlyCyclic g registry out) (hdefect : Defect g registry out e) :
    ∃ name, e = .cycleDetected name := by
  cases hdefect with
  | cycle => exact ⟨_, rfl⟩
  | links hreach hget hinput hlinks =>
    exact absurd hlinks (Nat.not_lt_of_le (h.single _ _ hreach hget _ hinput))
  | missing hreach hreads hget =>
    obtain ⟨node, hnode, -⟩ := h.supported _ (hreach.tail hreads)
    rw [hget] at hnode
    cases hnode
  | unsupported hreach hget hkernel =>
    obtain ⟨node, hnode, hsupported⟩ := h.supported _ hreach
    rw [hget] at hnode
    cases hnode
    exact absurd hkernel hsupported
  | textures hmany => exact absurd h.textures (not_le_of_gt hmany)

namespace Library

variable {l : Library} {title : String} {role : Role}

/-- A graph that is not added has an output, of which its error says something. -/
theorem Addition.exists_blames {l' : Library} (h : l.Addition title g role (.error e, l')) :
    ∃ out, g.IsFirst role.accepts out ∧ Blames g l.registry out e := by
  cases h with
  | rejected hchosen hdefect => exact ⟨_, chosenOutput?_eq_some_iff.1 hchosen, hdefect.blames⟩

/-- A graph with which nothing but cycles is amiss is not added because of a cycle. -/
theorem Addition.exists_cycle {a : Except Error Nat × Library} (h : l.Addition title g role a)
    (hfirst : g.IsFirst role.accepts out) (hcyclic : OnlyCyclic g l.registry out) :
    ∃ name, a.1 = .error (.cycleDetected name) := by
  have hchosen := chosenOutput?_eq_some_iff.2 hfirst
  cases h with
  | empty hnone =>
    rw [hnone] at hchosen
    cases hchosen
  | compiled hchosen' hvisited =>
    rw [hchosen'] at hchosen
    cases hchosen
    obtain ⟨name, hreach, hcycle⟩ := hcyclic.cyclic
    exact absurd hcycle (hvisited.compilable.acyclic name hreach)
  | rejected hchosen' hdefect =>
    rw [hchosen'] at hchosen
    cases hchosen
    obtain ⟨name, rfl⟩ := hcyclic.exists_cycle hdefect
    exact ⟨name, rfl⟩

end Library

/-- A material whose displacement is computed from itself. -/
def spiral : Graph where
  nodes := .ofList
    [("Output", ⟨.outputMaterial, .ofList [fed "Displacement" "Sum" "Value"]⟩),
     ("Sum", ⟨.math {}, .ofList [fed "Value" "Sum" "Value"]⟩)]

/-- Nothing else is amiss with it. -/
theorem onlyCyclic_spiral : OnlyCyclic spiral (Library.after []).registry "Output" := by
  have hnames : ∀ name, spiral.Reaches "Output" name → name ∈ ["Output", "Sum"] :=
    fun name hreach => hreach.mem_of_closed (by decide) (by decide +kernel)
  have hnodes : ∀ name ∈ ["Output", "Sum"], ∃ node, spiral.get? name = some node ∧
      capability node.kernel ≠ .unsupported ∧ textureOf? node.kernel = none ∧
      ∀ input ∈ node.inputs.entries, input.2.links.length ≤ 1 := by
    simp only [List.mem_cons, List.not_mem_nil, or_false, forall_eq_or_imp, forall_eq]
    exact ⟨⟨_, rfl, by decide +kernel⟩, ⟨_, rfl, by decide +kernel⟩⟩
  have hcycle : spiral.Reads "Sum" "Sum" :=
    ⟨_, _, rfl, rfl, _, List.mem_cons_self, rfl, _, rfl, rfl⟩
  have hreads : spiral.Reads "Output" "Sum" :=
    ⟨_, _, rfl, rfl, _, List.mem_cons_self, rfl, _, rfl, rfl⟩
  refine ⟨fun name hreach => ?_, fun name node hreach hget => ?_, ?_,
    ⟨"Sum", .single hreads, .single hcycle⟩⟩
  · obtain ⟨node, hget, hkernel, -⟩ := hnodes name (hnames name hreach)
    exact ⟨node, hget, hkernel⟩
  · obtain ⟨node', hget', -, -, hlinks⟩ := hnodes name (hnames name hreach)
    rw [hget] at hget'
    cases hget'
    exact hlinks
  · have hnone : neededKeys spiral (Library.after []).registry "Output" = ∅ := by
      refine Set.eq_empty_of_forall_notMem fun key hkey => ?_
      rcases hkey with hkey | ⟨name, source, hreach, ⟨node, -, hget, -, hsource⟩, -⟩
      · cases hkey
      · obtain ⟨node', hget', -, htexture, -⟩ := hnodes name (hnames name hreach)
        rw [hget] at hget'
        cases hget'
        rw [hsource] at htexture
        cases htexture
    rw [hnone, Set.encard_empty]
    exact zero_le

/-! ## Main result -/

namespace Library

/-- For a library that is made by adding any graphs, the error with which a graph is refused says
something true of the graph and of its output; and a graph of which nothing is amiss but that a
reached node lies on a cycle is refused for a cycle. -/
theorem add_error_blames (requests : List Request) (title : String) (g : Graph) (role : Role) :
    (∀ e, ((after requests).add title g role).1 = .error e →
      ∃ out, g.IsFirst role.accepts out ∧ Blames g (after requests).registry out e) ∧
    ∀ out, g.IsFirst role.accepts out → OnlyCyclic g (after requests).registry out →
      ∃ name, ((after requests).add title g role).1 = .error (.cycleDetected name) := by
  have haddition := add_addition (after_wellFormed requests) title g role
  constructor
  · intro e h
    rw [show (after requests).add title g role = (.error e, _) from Prod.ext h rfl] at haddition
    exact haddition.exists_blames
  · intro out hfirst hcyclic
    exact haddition.exists_cycle hfirst hcyclic

/-- A material that mixes a closure with itself is refused for that closure, and one whose
displacement is computed from itself for a cycle. -/
theorem blames_knot_spiral :
    (((after []).add "Knot" knot .surface).1 = .error (.cycleDetected "Mix") ∧
      ∃ out, knot.IsFirst Role.surface.accepts out ∧ knot.Reaches out "Mix" ∧
        knot.OnCycle "Mix") ∧
    spiral.IsFirst Role.surface.accepts "Output" ∧
      OnlyCyclic spiral (after []).registry "Output" ∧
      ∃ name, ((after []).add "Spiral" spiral .surface).1 = .error (.cycleDetected name) := by
  have hspiral : spiral.IsFirst Role.surface.accepts "Output" :=
    chosenOutput?_eq_some_iff.1 (by decide +kernel)
  exact ⟨⟨add_knot, (add_error_blames [] "Knot" knot .surface).1 _ add_knot⟩, hspiral,
    onlyCyclic_spiral,
    (add_error_blames [] "Spiral" spiral .surface).2 "Output" hspiral onlyCyclic_spiral⟩

end Library

end Candela.Shader
