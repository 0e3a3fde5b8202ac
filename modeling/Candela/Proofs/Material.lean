import Candela.Material
import Mathlib.Data.List.Basic

/-!
# Materials and their indices

A material that has an index in a role is the one with that index among what has been compiled in
the role (`Materials.index_ok`), and keeps it: whatever is asked for next, what has been compiled
stays, and the graphs never change (`Materials.index_extends`).
-/

namespace Candela

namespace Shader.Library

variable {l l' : Library} {title : String} {g : Graph} {role : Role} {i : Nat}

/-- A graph that is added is one more function, and its index is how many there were. -/
theorem of_add_ok (h : l.add title g role = (.ok i, l')) :
    i = (l.table role).length ∧
      ∃ f : Function, f.role = role ∧ f.title = title ∧ l'.functions = l.functions ++ [f] := by
  unfold add at h
  split at h
  · cases h
  · cases h
    exact ⟨rfl, _, rfl, rfl, rfl⟩

/-- A graph that is not added leaves the functions as they were. -/
theorem of_add_error {e : Error} (h : l.add title g role = (.error e, l')) :
    l'.functions = l.functions := by
  unfold add at h
  split at h <;> cases h
  rfl

end Shader.Library

namespace Materials

variable {m m' m'' : Materials} {role : Shader.Role} {name : String} {i : Nat}

/-- Materials of which more may have been compiled. -/
structure Extends (m m' : Materials) : Prop where
  graphs : m'.graphs = m.graphs
  compiled : ∀ role, m.compiled role <+: m'.compiled role

theorem Extends.refl (m : Materials) : m.Extends m := ⟨rfl, fun _ => List.prefix_refl _⟩

theorem Extends.trans (h : m.Extends m') (h' : m'.Extends m'') : m.Extends m'' :=
  ⟨h'.graphs.trans h.graphs, fun role => (h.compiled role).trans (h'.compiled role)⟩

/-- A material keeps its index. -/
theorem Extends.getElem? (h : m.Extends m') (hi : (m.compiled role)[i]? = some name) :
    (m'.compiled role)[i]? = some name := by
  obtain ⟨hlt, hname⟩ := List.getElem?_eq_some_iff.1 hi
  rw [List.prefix_iff_getElem?.1 (h.compiled role) i hlt, hname]

/-- Whether a material radiates light does not depend on what has been compiled. -/
theorem Extends.hasEmission (h : m.Extends m') (name : String) :
    m'.hasEmission name = m.hasEmission name := by
  rw [Materials.hasEmission, Materials.hasEmission, h.graphs]

/-- Whether a material radiates light is said by its graph. -/
theorem hasEmission_iff :
    m.hasEmission name = true ↔ ∃ g, m.graphs.get? name = some g ∧ g.hasSurfaceEmission = true := by
  rw [Materials.hasEmission]
  cases m.graphs.get? name with
  | none => simp
  | some g => simp

/-- One more function is one more material of its role, and none of the other. -/
theorem compiled_concat {shaders : Shader.Library} {f : Shader.Function}
    (hf : shaders.functions = m.shaders.functions ++ [f]) (role : Shader.Role) :
    ({ m with shaders := shaders } : Materials).compiled role =
      m.compiled role ++ if f.role = role then [f.title] else [] := by
  rw [compiled, compiled, hf, List.filter_append, List.map_append]
  split
  next h => simp [h]
  next h => simp [h]

/-- A role has a function for every material that has been compiled in it. -/
theorem length_table (m : Materials) (role : Shader.Role) :
    (m.shaders.table role).length = (m.compiled role).length := by
  rw [Shader.Library.table, compiled, List.length_map, List.length_map]

/-- What asking for an index comes to: the material has one, there is no such material, it cannot be
compiled, or it has been compiled. -/
theorem index_cases {answer : Except Error Nat} (h : m.index role name = (answer, m')) :
    (∃ i, (m.compiled role).idxOf? name = some i ∧ answer = .ok i ∧ m' = m) ∨
    (∃ e, answer = .error e ∧ m'.graphs = m.graphs ∧ m'.shaders.functions = m.shaders.functions) ∨
    answer = .ok (m.compiled role).length ∧ m'.graphs = m.graphs ∧
      ∀ role', m'.compiled role' = m.compiled role' ++ if role = role' then [name] else [] := by
  unfold index at h
  split at h
  next i hi =>
    cases h
    exact .inl ⟨i, hi, rfl, rfl⟩
  next =>
    split at h
    next =>
      cases h
      exact .inr (.inl ⟨_, rfl, rfl, rfl⟩)
    next g _ =>
      cases hadd : m.shaders.add name g role with
      | mk result shaders =>
        rw [hadd] at h
        cases h
        cases answer with
        | error e => exact .inr (.inl ⟨e, rfl, rfl, Shader.Library.of_add_error hadd⟩)
        | ok i =>
          obtain ⟨rfl, f, rfl, rfl, hf⟩ := Shader.Library.of_add_ok hadd
          exact .inr (.inr ⟨congrArg _ (length_table m _), rfl, compiled_concat hf⟩)

/-- Asking for an index keeps what has been compiled. -/
theorem index_extends {answer : Except Error Nat} (h : m.index role name = (answer, m')) :
    m.Extends m' := by
  rcases index_cases h with ⟨i, -, -, rfl⟩ | ⟨e, -, hgraphs, hfunctions⟩ | ⟨-, hgraphs, hcompiled⟩
  · exact .refl m'
  · refine ⟨hgraphs, fun role => ?_⟩
    have hcompiled : m'.compiled role = m.compiled role := by
      rw [compiled, compiled, hfunctions]
    exact hcompiled ▸ List.prefix_refl _
  · exact ⟨hgraphs, fun role => hcompiled role ▸ List.prefix_append _ _⟩

/-- The material that has an index is the one with the index. -/
theorem index_ok (h : m.index role name = (.ok i, m')) : (m'.compiled role)[i]? = some name := by
  rcases index_cases h with ⟨i, hi, hanswer, rfl⟩ | ⟨e, hanswer, -⟩ | ⟨hanswer, -, hcompiled⟩
  · cases hanswer
    obtain ⟨hlt, hname, -⟩ := List.idxOf?_eq_some_iff.1 hi
    exact List.getElem?_eq_some_iff.2 ⟨hlt, hname⟩
  · cases hanswer
  · cases hanswer
    rw [hcompiled, if_pos rfl, List.getElem?_concat_length]

/-- The index that a material has been given is the first one with its name. -/
theorem idxOf?_of_index (h : m.index role name = (.ok i, m')) :
    (m'.compiled role).idxOf? name = some i := by
  unfold index at h
  split at h
  next j hj =>
    cases h
    exact hj
  next hnone =>
    split at h
    next => cases h
    next g _ =>
      cases hadd : m.shaders.add name g role with
      | mk result shaders =>
        rw [hadd] at h
        cases h
        obtain ⟨rfl, f, rfl, rfl, hf⟩ := Shader.Library.of_add_ok hadd
        rw [compiled_concat hf, if_pos rfl, List.idxOf?, List.findIdx?_append]
        rw [List.idxOf?] at hnone
        simp [hnone, length_table]

/-- A material that is the first one of its name stays so. -/
theorem Extends.idxOf? (h : m.Extends m') (hi : (m.compiled role).idxOf? name = some i) :
    (m'.compiled role).idxOf? name = some i := by
  obtain ⟨more, hmore⟩ := h.compiled role
  rw [List.idxOf?] at hi
  rw [← hmore, List.idxOf?, List.findIdx?_append, hi, Option.some_or]

/-- A material that has an index is not compiled again. -/
theorem index_of_idxOf? (h : (m.compiled role).idxOf? name = some i) :
    m.index role name = (.ok i, m) := by
  rw [index, h]

end Materials

end Candela
