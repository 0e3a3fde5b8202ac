import Candela.Proofs.Shader.Library

/-!
# Which graphs are added

A graph is added if and only if nothing that its output reaches is amiss and there are slots for all
textures (`add_ok_iff_compilable`); the bound on the depth of the walk decides nothing. A graph that
is not added leaves no trace, although textures may have been given slots before the defect was met:
whatever is asked later is answered as if it had never been asked for (`addAll_skips_rejected`).
-/

namespace Candela.Shader

open Candela.Graph (Node Input)

variable {l : Library} {title : String} {g : Graph} {role : Role} {out : String}

/-- The output that is compiled is the first node that is accepted for the role. -/
theorem chosenOutput?_eq_some_iff :
    chosenOutput? g role = some out ↔ g.IsFirst role.accepts out :=
  Graph.head?_namesWhere_eq_some_iff

/-- Nothing is compiled if and only if no node is accepted for the role. -/
theorem chosenOutput?_eq_none_iff :
    chosenOutput? g role = none ↔
      ∀ name node, g.get? name = some node → ¬ role.accepts node.kernel :=
  Graph.head?_namesWhere_eq_none_iff

/-- Compiling a graph is walking its output, whatever bound on the depth is large enough. -/
theorem run_emitGraph_eq {depth : Nat} (h : chosenOutput? g role = some out)
    (registry : Texture.Registry) (hdepth : g.size < depth) :
    (emitGraph g role).run (.start registry) = (emitNode g depth out).run (.start registry) := by
  unfold emitGraph
  rw [h]
  exact (emitNode_eq_of_lt registry out hdepth).symm

namespace Library

/-- A graph with an output is added if and only if it can be compiled. -/
theorem Addition.ok_iff_compilable {a : Except Error Nat × Library}
    (h : l.Addition title g role a) (hchosen : chosenOutput? g role = some out) :
    (∃ i, a.1 = .ok i) ↔ Compilable g l.registry out := by
  cases h with
  | empty hnone =>
    rw [hnone] at hchosen
    cases hchosen
  | compiled hchosen' hvisited =>
    rw [hchosen'] at hchosen
    cases hchosen
    exact iff_of_true ⟨_, rfl⟩ hvisited.compilable
  | rejected hchosen' hdefect =>
    rw [hchosen'] at hchosen
    cases hchosen
    refine iff_of_false (fun hok => ?_) fun hcompilable => hcompilable.not_defect hdefect
    obtain ⟨i, hi⟩ := hok
    cases hi

/-- Without an output a graph is added with an empty function. -/
theorem Addition.eq_of_no_output {a : Except Error Nat × Library}
    (h : l.Addition title g role a) (hchosen : chosenOutput? g role = none) :
    a = (.ok (l.table role).length, l.withFunction title role l.registry []) := by
  cases h with
  | empty => rfl
  | compiled hchosen' =>
    rw [hchosen'] at hchosen
    cases hchosen
  | rejected hchosen' =>
    rw [hchosen'] at hchosen
    cases hchosen

/-- A graph that is not added leaves the library as it was. -/
theorem add_of_error {e : Error} (h : l.registry.WellFormed)
    (hadd : (l.add title g role).1 = .error e) : l.add title g role = (.error e, l) := by
  have haddition := add_addition h title g role
  cases hout : l.add title g role with
  | mk answer l' =>
    rw [hout] at hadd haddition
    cases hadd
    rw [haddition.of_error]

/-- A request that is refused only contributes its answer. -/
theorem addAll_cons_of_error {r : Request} {e : Error} (h : l.registry.WellFormed)
    (hadd : (l.add r.title r.graph r.role).1 = .error e) (later : List Request) :
    l.addAll (r :: later) = (.error e :: (l.addAll later).1, (l.addAll later).2) := by
  rw [addAll_cons, add_of_error h hadd]

end Library

/-! ## Two graphs -/

/-- An input that is linked to an output of a node. -/
def fed (input node output : String) : String × Input :=
  (input, ⟨.other, [⟨node, output⟩], none⟩)

/-- A material whose two closures have similar names and share a texture. -/
def braid : Graph where
  nodes := .ofList
    [("Output", ⟨.outputMaterial, .ofList [fed "Surface" "Mix" "Shader"]⟩),
     ("Mix", ⟨.mixShader, .ofList
       [fed "Shader" "Bsdf.001" "BSDF", fed "Shader_001" "Bsdf 001" "BSDF"]⟩),
     ("Bsdf.001", ⟨.bsdfDiffuse, .ofList [fed "Color" "Image" "Color"]⟩),
     ("Bsdf 001", ⟨.bsdfDiffuse, .ofList
       [fed "Color" "Image" "Alpha", fed "Roughness" "Image" "Depth", fed "Unused" "Lost" ""]⟩),
     ("Image", ⟨.texImage {}, .empty⟩)]

/-- A material that mixes a closure with itself, behind two textures. -/
def knot : Graph where
  nodes := .ofList
    [("Output", ⟨.outputMaterial, .ofList [fed "Surface" "Mix" "Shader"]⟩),
     ("Mix", ⟨.mixShader, .ofList
       [fed "Fac" "Known" "Alpha", fed "Shader" "New" "Color", fed "Shader_001" "Mix" "Shader"]⟩),
     ("Known", ⟨.texImage {}, .empty⟩),
     ("New", ⟨.texImage { filepath := "new.png" }, .empty⟩)]

theorem add_braid : ((Library.after []).add "Braid" braid .surface).1 = .ok 0 := by
  decide +kernel

theorem add_knot :
    ((Library.after []).add "Knot" knot .surface).1 = .error (.cycleDetected "Mix") := by
  decide +kernel

/-! ## Main results -/

namespace Library

/-- For a library that is made by adding any graphs, a graph whose first accepted node is `out` is
added if and only if it can be compiled, and every bound on the depth that is larger than the number
of nodes gives the same walk. A graph without an accepted node is added with an empty function. -/
theorem add_ok_iff_compilable (requests : List Request) (title : String) (g : Graph)
    (role : Role) :
    (∀ out, g.IsFirst role.accepts out →
      ((∃ i, ((after requests).add title g role).1 = .ok i) ↔
        Compilable g (after requests).registry out) ∧
      ∀ depth, g.size < depth →
        (emitGraph g role).run (.start (after requests).registry) =
          (emitNode g depth out).run (.start (after requests).registry)) ∧
    ((∀ name node, g.get? name = some node → ¬ role.accepts node.kernel) →
      (after requests).add title g role =
        (.ok ((after requests).table role).length,
          (after requests).withFunction title role (after requests).registry [])) := by
  have hadd := add_addition (after_wellFormed requests) title g role
  constructor
  · intro out hfirst
    have hchosen := chosenOutput?_eq_some_iff.2 hfirst
    exact ⟨hadd.ok_iff_compilable hchosen,
      fun depth hdepth => run_emitGraph_eq hchosen _ hdepth⟩
  · intro hnone
    exact hadd.eq_of_no_output (chosenOutput?_eq_none_iff.2 hnone)

/-- Of the two graphs one is added as a surface and one is not; none is a light. -/
theorem compilable_braid_not_knot :
    (braid.IsFirst Role.surface.accepts "Output" ∧
      Compilable braid (after []).registry "Output") ∧
    (knot.IsFirst Role.surface.accepts "Output" ∧
      ¬ Compilable knot (after []).registry "Output") ∧
    (∀ name node, knot.get? name = some node → ¬ Role.light.accepts node.kernel) ∧
      (after []).add "Knot" knot .light =
        (.ok 0, (after []).withFunction "Knot" .light (after []).registry []) := by
  have hbraid : braid.IsFirst Role.surface.accepts "Output" :=
    chosenOutput?_eq_some_iff.1 (by decide +kernel)
  have hknot : knot.IsFirst Role.surface.accepts "Output" :=
    chosenOutput?_eq_some_iff.1 (by decide +kernel)
  have hlight : ∀ name node, knot.get? name = some node → ¬ Role.light.accepts node.kernel :=
    chosenOutput?_eq_none_iff.1 (by decide +kernel)
  refine ⟨⟨hbraid, ?_⟩, ⟨hknot, fun hcompilable => ?_⟩, hlight, ?_⟩
  · exact ((add_ok_iff_compilable [] "Braid" braid .surface).1 "Output" hbraid).1.1 ⟨0, add_braid⟩
  · obtain ⟨i, hi⟩ :=
      ((add_ok_iff_compilable [] "Knot" knot .surface).1 "Output" hknot).1.2 hcompilable
    rw [add_knot] at hi
    cases hi
  · exact (add_ok_iff_compilable [] "Knot" knot .light).2 hlight

/-- A request that is refused leaves the library as it was, with all its functions, names, tables
and slots, whatever has been asked before; and what is asked later is answered, and ends with the
same library, as if the request had not been made. -/
theorem addAll_skips_rejected (before later : List Request) (r : Request) (e : Error)
    (h : ((after before).add r.title r.graph r.role).1 = .error e) :
    ((after before).add r.title r.graph r.role).2 = after before ∧
      empty.addAll (before ++ r :: later) =
        ((empty.addAll before).1 ++ .error e :: ((after before).addAll later).1,
          after (before ++ later)) ∧
      empty.addAll (before ++ later) =
        ((empty.addAll before).1 ++ ((after before).addAll later).1, after (before ++ later)) := by
  have hwf := after_wellFormed before
  have hlater : ((after before).addAll later).2 = after (before ++ later) := by
    rw [after, after, addAll_append]
  refine ⟨?_, ?_, ?_⟩
  · rw [add_of_error hwf h]
  · rw [addAll_append, ← after, addAll_cons_of_error hwf h, hlater]
  · rw [addAll_append, ← after, hlater]

/-- A refused graph that gave a slot to a new texture, between two that are added. -/
theorem knot_between_braids :
    ((after [⟨"Braid", braid, .surface⟩]).add "Knot" knot .surface).1 =
        .error (.cycleDetected "Mix") ∧
      ((after [⟨"Braid", braid, .surface⟩]).add "Knot" knot .surface).2 =
        after [⟨"Braid", braid, .surface⟩] ∧
      (empty.addAll [⟨"Braid", braid, .surface⟩, ⟨"Knot", knot, .surface⟩,
        ⟨"Braid", braid, .surface⟩]).2 =
        after [⟨"Braid", braid, .surface⟩, ⟨"Braid", braid, .surface⟩] := by
  have hrejected : ((after [⟨"Braid", braid, .surface⟩]).add "Knot" knot .surface).1 =
      .error (.cycleDetected "Mix") := by decide +kernel
  obtain ⟨hsame, hlater, -⟩ := addAll_skips_rejected [⟨"Braid", braid, .surface⟩]
    [⟨"Braid", braid, .surface⟩] ⟨"Knot", knot, .surface⟩ _ hrejected
  rw [List.cons_append, List.nil_append, List.cons_append, List.nil_append] at hlater
  refine ⟨hrejected, hsame, ?_⟩
  rw [hlater]

end Library

end Candela.Shader
