import Candela.Proofs.Material
import Candela.Proofs.Shader.Blocks

/-!
# What has been compiled of materials

However materials are asked for, every function has been compiled from the graph that has its title,
and no graph more than once in a role (`Materials.Sound`). Asking for an index keeps this: it comes
to an index that there is, to nothing at all, or to one more function (`Materials.Sound.index`).
-/

namespace Candela

namespace Shader.Library

variable {l l' : Library} {title : String} {g : Graph} {role : Role} {i : Nat}

/-- A graph that is added is one more function, which has what is needed of the graph. -/
theorem Addition.exists_complete (h : l.Addition title g role (.ok i, l')) :
    ∃ f : Function, f.role = role ∧ f.title = title ∧ f.Complete g ∧
      l'.functions = l.functions ++ [f] := by
  obtain ⟨-, registry, blocks, rfl, hblocks⟩ := h.of_ok
  refine ⟨⟨role, title, l.freshName title, blocks⟩, rfl, rfl, ?_, rfl⟩
  rcases hblocks with ⟨hchosen, -, rfl⟩ | ⟨out, q, hchosen, -, rfl, hvisited⟩
  · exact complete_of_no_output hchosen _ _
  · exact hvisited.complete hchosen _ _

end Shader.Library

namespace Materials

variable {m m' : Materials} {role : Shader.Role} {name : String} {i : Nat}

/-- Every function has been compiled from the graph that has its title, and no graph more than once
in a role. -/
structure Sound (m : Materials) : Prop where
  registry : m.shaders.registry.WellFormed
  distinct : ∀ role, (m.compiled role).Nodup
  complete : ∀ f ∈ m.shaders.functions, ∃ g, m.graphs.get? f.title = some g ∧ f.Complete g

/-- Nothing has been compiled at first. -/
theorem sound_ofGraphs (graphs : Keyed Graph) : (ofGraphs graphs).Sound :=
  ⟨.empty, fun _ => .nil, nofun⟩

/-- A step: one more function is compiled, from a graph that has not been compiled in its role. -/
theorem Sound.compiled (h : m.Sound) {shaders : Shader.Library} {f : Shader.Function} {g : Graph}
    (hnew : f.title ∉ m.compiled f.role) (hregistry : shaders.registry.WellFormed)
    (hfunctions : shaders.functions = m.shaders.functions ++ [f])
    (hget : m.graphs.get? f.title = some g) (hcomplete : f.Complete g) :
    Sound { m with shaders } := by
  refine ⟨hregistry, fun role => ?_, fun f' hf' => ?_⟩
  · rw [compiled_concat hfunctions role]
    by_cases hrole : f.role = role
    · subst hrole
      rw [if_pos rfl]
      exact List.nodup_append.2 ⟨h.distinct _, List.nodup_singleton _, fun a ha b hb => by
        rintro rfl
        exact hnew (List.mem_singleton.1 hb ▸ ha)⟩
    · rw [if_neg hrole, List.append_nil]
      exact h.distinct role
  · rw [show Shader.Library.functions _ = _ from hfunctions] at hf'
    rcases List.mem_append.1 hf' with hold | hmem
    · exact h.complete f' hold
    · obtain rfl := List.mem_singleton.1 hmem
      exact ⟨g, hget, hcomplete⟩

/-- What asking for an index comes to: the material has one, nothing happens, or one more function
has been compiled. -/
theorem Sound.index (h : m.Sound) (role : Shader.Role) (name : String) :
    (∃ i, (m.compiled role).idxOf? name = some i ∧ m.index role name = (.ok i, m)) ∨
    (∃ e, m.index role name = (.error e, m)) ∨
    (name ∉ m.compiled role ∧ (m.index role name).1 = .ok (m.compiled role).length ∧
      (∀ role', (m.index role name).2.compiled role' =
        m.compiled role' ++ if role = role' then [name] else []) ∧
      (m.index role name).2.Sound) := by
  cases hfound : (m.compiled role).idxOf? name with
  | some i => exact .inl ⟨i, rfl, index_of_idxOf? hfound⟩
  | none =>
    have hnew : name ∉ m.compiled role := List.idxOf?_eq_none_iff.1 hfound
    cases hget : m.graphs.get? name with
    | none =>
      have hmissing : m.index role name = (.error (.missingMaterial name), m) := by
        simp only [Materials.index, hfound, hget]
      exact .inr (.inl ⟨_, hmissing⟩)
    | some g =>
      have haddition := Shader.Library.add_addition h.registry name g role
      have hindex : m.index role name = ((m.shaders.add name g role).1,
          { m with shaders := (m.shaders.add name g role).2 }) := by
        simp only [Materials.index, hfound, hget]
      rw [hindex]
      cases hadd : m.shaders.add name g role with
      | mk answer shaders =>
        rw [hadd] at haddition
        cases answer with
        | error e =>
          rw [haddition.of_error]
          exact .inr (.inl ⟨e, rfl⟩)
        | ok i =>
          obtain ⟨rfl, -⟩ := Shader.Library.of_add_ok hadd
          obtain ⟨f, rfl, rfl, hcomplete, hfunctions⟩ := haddition.exists_complete
          refine .inr (.inr ⟨hnew, congrArg _ (length_table m f.role),
            compiled_concat hfunctions, ?_⟩)
          exact h.compiled hnew (haddition.wellFormed h.registry) hfunctions hget hcomplete

/-- A step: asking for an index. -/
theorem Sound.of_index {answer : Except Error Nat} (h : m.Sound)
    (hindex : m.index role name = (answer, m')) : m'.Sound := by
  rcases h.index role name with ⟨i, -, heq⟩ | ⟨e, heq⟩ | ⟨-, -, -, hsound⟩
  · rw [hindex] at heq
    cases heq
    exact h
  · rw [hindex] at heq
    cases heq
    exact h
  · rw [hindex] at hsound
    exact hsound

end Materials

end Candela
