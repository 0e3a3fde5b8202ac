import Candela.Material.Ledger
import Candela.Proofs.Material.Compiled

/-!
# What a ledger has written down

A ledger answers every call as the materials without notes would (`Ledger.Accurate.step`), because
its notes are accurate: the indices it has written down are the places of the materials among what
has been compiled in a role, the names of the surfaces are the titles of their functions, and what
it knows of light is what the graphs say. So the answers only depend on what has been compiled,
which grows by one function for every new material, and a call that fails leaves everything as it
was. `Ledger.Aligned` puts together what follows for the answers to any calls (`Ledger.aligned`).
-/

namespace Candela

namespace Materials

variable {m : Materials}

/-- A call that is answered without notes. -/
def step (m : Materials) : Call → Answer × Materials
  | .index role name => (m.index role name).map .index id
  | .hasEmission name => (.flag (m.hasEmission name), m)
  | .emissiveSurfaces => (.flags m.emissiveSurfaces, m)

/-- A step: answering a call. -/
theorem Sound.step (h : m.Sound) (c : Call) : (m.step c).2.Sound ∧ m.Extends (m.step c).2 := by
  cases c with
  | index role name => exact ⟨h.of_index rfl, index_extends rfl⟩
  | hasEmission name => exact ⟨h, .refl m⟩
  | emissiveSurfaces => exact ⟨h, .refl m⟩

/-! ## Accurate notes -/

namespace Ledger

variable {l : Ledger}

/-- The materials without the notes. -/
def materials (l : Ledger) : Materials := ⟨l.graphs, l.shaders⟩

@[simp] theorem graphs_materials (l : Ledger) : l.materials.graphs = l.graphs := rfl

@[simp] theorem shaders_materials (l : Ledger) : l.materials.shaders = l.shaders := rfl

/-- An index that has been written down is the answer. -/
theorem index_of_lookup {role : Shader.Role} {name : String} {i : Nat}
    (h : l.indices.lookup (role, name) = some i) : l.index role name = (.ok i, l) := by
  rw [Ledger.index, h]

/-- Everything that has been written down is so. -/
structure Accurate (l : Ledger) : Prop where
  /-- The indices are the places of the materials among those that have been compiled in a role. -/
  indices : ∀ role name, l.indices.lookup (role, name) = (l.materials.compiled role).idxOf? name
  emissive : ∀ name flag, l.emissive.get? name = some flag → flag = l.materials.hasEmission name
  surfaces : l.surfaces = l.materials.compiled .surface

/-- Nothing has been written down at first. -/
theorem accurate_ofGraphs (graphs : Keyed Graph) : (ofGraphs graphs).Accurate :=
  ⟨fun _ _ => rfl, nofun, rfl⟩

/-- The place of an element of a list that has grown at its end. -/
theorem idxOf?_concat (names : List String) (name new : String) :
    (names ++ [new]).idxOf? name =
      (names.idxOf? name).or (if new = name then some names.length else none) := by
  rw [List.idxOf?, List.findIdx?_append, ← List.idxOf?]
  by_cases h : new = name <;> simp [h]

/-- The notes about a new material are as accurate as those that are there. -/
theorem Accurate.compiled {shaders : Shader.Library} {f : Shader.Function} (h : l.Accurate)
    (hnew : f.title ∉ l.materials.compiled f.role)
    (hfunctions : shaders.functions = l.shaders.functions ++ [f]) :
    Accurate { l with
      shaders
      surfaces := if f.role = .surface then l.surfaces ++ [f.title] else l.surfaces
      indices := ((f.role, f.title), (l.shaders.table f.role).length) :: l.indices } := by
  have hcompiled := compiled_concat (m := l.materials) hfunctions
  refine ⟨fun role name => ?_, h.emissive, ?_⟩
  · show List.lookup (role, name) (((f.role, f.title), _) :: l.indices) =
      (Materials.compiled ⟨l.graphs, shaders⟩ role).idxOf? name
    rw [show Materials.compiled ⟨l.graphs, shaders⟩ role = _ from hcompiled role,
      List.lookup_cons]
    by_cases hrole : f.role = role
    · subst hrole
      rw [if_pos rfl, idxOf?_concat]
      by_cases hname : f.title = name
      · subst hname
        rw [List.idxOf?_eq_none_iff.2 hnew]
        simpa using length_table l.materials f.role
      · have hb : ((f.role, name) == (f.role, f.title)) = false := by
          simpa using fun heq => hname heq.symm
        simp [hb, hname, h.indices]
    · have hb : ((role, name) == (f.role, f.title)) = false := by
        simpa using fun heq _ => hrole heq.symm
      simp [hb, hrole, h.indices]
  · show (if f.role = .surface then _ else _) =
      Materials.compiled ⟨l.graphs, shaders⟩ .surface
    rw [show Materials.compiled ⟨l.graphs, shaders⟩ .surface = _ from hcompiled .surface,
      ← h.surfaces]
    split <;> simp

/-- The notes stay accurate when no function is added. -/
theorem Accurate.rejected {shaders : Shader.Library} (h : l.Accurate)
    (hfunctions : shaders.functions = l.shaders.functions) : Accurate { l with shaders } := by
  have hcompiled (role : Shader.Role) :
      Materials.compiled ⟨l.graphs, shaders⟩ role = l.materials.compiled role := by
    rw [Materials.compiled, Materials.compiled, hfunctions, shaders_materials]
  refine ⟨fun role name => ?_, h.emissive, h.surfaces.trans (hcompiled .surface).symm⟩
  exact (h.indices role name).trans (hcompiled role ▸ rfl)

/-- Asking for an index: the answer is that of the materials, and so is what has been compiled. -/
theorem Accurate.index (h : l.Accurate) (role : Shader.Role) (name : String) :
    (l.index role name).1 = (l.materials.index role name).1 ∧
      (l.index role name).2.materials = (l.materials.index role name).2 ∧
      (l.index role name).2.Accurate := by
  cases hfound : (l.materials.compiled role).idxOf? name with
  | some i =>
    rw [index_of_lookup ((h.indices role name).trans hfound), index_of_idxOf? hfound]
    exact ⟨rfl, rfl, h⟩
  | none =>
    have hnew : name ∉ l.materials.compiled role := List.idxOf?_eq_none_iff.1 hfound
    cases hget : l.graphs.get? name with
    | none =>
      simp only [Ledger.index, Materials.index, h.indices, hfound, graphs_materials, hget]
      exact ⟨trivial, trivial, h⟩
    | some g =>
      simp only [Ledger.index, Materials.index, h.indices, hfound, graphs_materials,
        shaders_materials, hget]
      cases hadd : l.shaders.add name g role with
      | mk answer shaders =>
        cases answer with
        | error e => exact ⟨rfl, rfl, h.rejected (Shader.Library.of_add_error hadd)⟩
        | ok i =>
          obtain ⟨rfl, f, rfl, rfl, hfunctions⟩ := Shader.Library.of_add_ok hadd
          exact ⟨rfl, rfl, h.compiled hnew hfunctions⟩

/-- Asking about light. -/
theorem Accurate.hasEmission (h : l.Accurate) (name : String) :
    (l.hasEmission name).1 = l.materials.hasEmission name ∧
      (l.hasEmission name).2.materials = l.materials ∧
      (l.hasEmission name).2.surfaces = l.surfaces ∧ (l.hasEmission name).2.Accurate := by
  unfold Ledger.hasEmission
  cases hflag : l.emissive.get? name with
  | some flag => exact ⟨h.emissive name flag hflag, rfl, rfl, h⟩
  | none =>
    have heq : ((l.graphs.get? name).map Graph.hasSurfaceEmission).getD false =
        l.materials.hasEmission name := by
      unfold Materials.hasEmission Ledger.materials
      cases l.graphs.get? name <;> rfl
    refine ⟨heq, rfl, rfl, h.indices, fun name' flag' hget => ?_, h.surfaces⟩
    rw [Keyed.get?_insert] at hget
    split at hget
    next hname =>
      cases hget
      rw [hname]
      exact heq
    next => exact h.emissive name' flag' hget

/-- Asking about the light of one material after another. -/
theorem Accurate.emissions (h : l.Accurate) (names : List String) :
    (l.emissions names).1 = names.map l.materials.hasEmission ∧
      (l.emissions names).2.materials = l.materials ∧ (l.emissions names).2.Accurate := by
  induction names generalizing l with
  | nil => exact ⟨rfl, rfl, h⟩
  | cons name rest ih =>
    obtain ⟨hflag, hmaterials, -, haccurate⟩ := h.hasEmission name
    obtain ⟨hflags, hmaterials', haccurate'⟩ := ih haccurate
    refine ⟨?_, hmaterials'.trans hmaterials, haccurate'⟩
    rw [List.map_cons, ← hflag, ← hmaterials, ← hflags]
    rfl

/-- A step: a call is answered as it is without notes, and the notes stay accurate. -/
theorem Accurate.step (h : l.Accurate) (c : Call) :
    (l.step c).1 = (l.materials.step c).1 ∧ (l.step c).2.materials = (l.materials.step c).2 ∧
      (l.step c).2.Accurate := by
  cases c with
  | index role name =>
    obtain ⟨hanswer, hrest⟩ := h.index role name
    exact ⟨congrArg Answer.index hanswer, hrest⟩
  | hasEmission name =>
    obtain ⟨hanswer, hmaterials, -, haccurate⟩ := h.hasEmission name
    exact ⟨congrArg Answer.flag hanswer, hmaterials, haccurate⟩
  | emissiveSurfaces =>
    obtain ⟨hanswer, hrest⟩ := h.emissions l.surfaces
    refine ⟨congrArg Answer.flags (hanswer.trans ?_), hrest⟩
    rw [h.surfaces]
    rfl

/-! ## Runs -/

variable {graphs : Keyed Graph}

/-- The answers to some calls. -/
def answers (graphs : Keyed Graph) (calls : List Call) : List Answer :=
  ((ofGraphs graphs).run calls).1

/-- What a call for an index in a role has been granted: the material, and its index. -/
def grant? (role : Shader.Role) : Call × Answer → Option (String × Nat)
  | (.index role' name, .index (.ok i)) => if role' = role then some (name, i) else none
  | _ => none

/-- What has been granted for a role, in the order of the calls. -/
def granted (role : Shader.Role) (graphs : Keyed Graph) (calls : List Call) :
    List (String × Nat) :=
  (calls.zip (answers graphs calls)).filterMap (grant? role)

/-- Calls are answered one after another. -/
theorem run_append (l : Ledger) (calls later : List Call) :
    l.run (calls ++ later) =
      ((l.run calls).1 ++ ((l.run calls).2.run later).1, ((l.run calls).2.run later).2) := by
  induction calls generalizing l with
  | nil => rfl
  | cons c rest ih => simp only [List.cons_append, run, ih]

/-- There is an answer to every call. -/
theorem length_run (l : Ledger) (calls : List Call) : (l.run calls).1.length = calls.length := by
  induction calls generalizing l with
  | nil => rfl
  | cons c rest ih => simp [run, ih]

theorem after_append (graphs : Keyed Graph) (calls later : List Call) :
    after graphs (calls ++ later) = ((after graphs calls).run later).2 := by
  simp only [after, run_append]

theorem answers_append (graphs : Keyed Graph) (calls later : List Call) :
    answers graphs (calls ++ later) =
      answers graphs calls ++ ((after graphs calls).run later).1 := by
  simp only [answers, after, run_append]

/-- One more call. -/
theorem after_concat (graphs : Keyed Graph) (calls : List Call) (c : Call) :
    after graphs (calls ++ [c]) = ((after graphs calls).step c).2 :=
  after_append graphs calls [c]

/-- What has been granted by one more call. -/
theorem granted_concat (role : Shader.Role) (graphs : Keyed Graph) (calls : List Call) (c : Call) :
    granted role graphs (calls ++ [c]) = granted role graphs calls ++
      (grant? role (c, ((after graphs calls).step c).1)).toList := by
  have hlength : calls.length = (answers graphs calls).length := (length_run _ _).symm
  rw [granted, answers_append, List.zip_append hlength, List.filterMap_append]
  show _ ++ List.filterMap (grant? role) [(c, ((after graphs calls).step c).1)] = _
  rw [List.filterMap_cons, List.filterMap_nil]
  cases grant? role (c, ((after graphs calls).step c).1) <;> rfl

/-- A run: the notes are accurate, and what has been compiled only grows. -/
theorem accurate_run {l : Ledger} (h : l.Accurate) (hsound : l.materials.Sound)
    (calls : List Call) :
    (l.run calls).2.Accurate ∧ (l.run calls).2.materials.Sound ∧
      l.materials.Extends (l.run calls).2.materials := by
  induction calls generalizing l with
  | nil => exact ⟨h, hsound, .refl _⟩
  | cons c rest ih =>
    obtain ⟨-, hmaterials, haccurate⟩ := h.step c
    obtain ⟨hstep, hextends⟩ := hsound.step c
    rw [← hmaterials] at hstep hextends
    obtain ⟨haccurate', hsound', hextends'⟩ := ih haccurate hstep
    exact ⟨haccurate', hsound', hextends.trans hextends'⟩

/-- After any calls the notes are accurate, and the functions those of the graphs. -/
theorem accurate_after (graphs : Keyed Graph) (calls : List Call) :
    (after graphs calls).Accurate ∧ (after graphs calls).materials.Sound ∧
      (after graphs calls).graphs = graphs := by
  obtain ⟨haccurate, hsound, hextends⟩ :=
    accurate_run (accurate_ofGraphs graphs) (sound_ofGraphs graphs) calls
  exact ⟨haccurate, hsound, hextends.graphs⟩

/-- A material without an index is not written down. -/
theorem index_eq_of_error {role : Shader.Role} {name : String} {e : Error}
    (h : (l.index role name).1 = .error e) :
    (l.index role name).2 = { l with shaders := (l.index role name).2.shaders } := by
  unfold Ledger.index at h ⊢
  split at h
  next => cases h
  next =>
    split at h
    next => rfl
    next g _ =>
      cases hadd : l.shaders.add name g role with
      | mk answer shaders =>
        rw [hadd] at h
        cases answer with
        | error e => rfl
        | ok i => cases h

/-- What asking for an index comes to: the material has one, nothing happens, or it is new and gets
the next one. -/
theorem Accurate.index_cases (h : l.Accurate) (hsound : l.materials.Sound) (role : Shader.Role)
    (name : String) :
    (∃ i, (l.materials.compiled role).idxOf? name = some i ∧ l.index role name = (.ok i, l)) ∨
    (∃ e, l.index role name = (.error e, l)) ∨
    (name ∉ l.materials.compiled role ∧
      (l.index role name).1 = .ok (l.materials.compiled role).length ∧
      ∀ role', (l.index role name).2.materials.compiled role' =
        l.materials.compiled role' ++ if role = role' then [name] else []) := by
  obtain ⟨hanswer, hmaterials, -⟩ := h.index role name
  rcases hsound.index role name with ⟨i, hi, -⟩ | ⟨e, he⟩ | ⟨hnew, hok, hcompiled, -⟩
  · exact .inl ⟨i, hi, index_of_lookup ((h.indices role name).trans hi)⟩
  · rw [he] at hanswer hmaterials
    have hshaders : (l.index role name).2.shaders = l.shaders := congrArg (·.shaders) hmaterials
    have hsame := index_eq_of_error hanswer
    rw [hshaders] at hsame
    exact .inr (.inl ⟨e, Prod.ext hanswer hsame⟩)
  · refine .inr (.inr ⟨hnew, hanswer.trans hok, fun role' => ?_⟩)
    rw [hmaterials, hcompiled]

/-- The distinct elements of a list that has grown at its end. -/
theorem eraseDups_concat {α : Type} [BEq α] [LawfulBEq α] (xs : List α) (x : α) :
    (xs ++ [x]).eraseDups = xs.eraseDups ++ if x ∈ xs then [] else [x] := by
  rw [List.eraseDups_append]
  by_cases h : x ∈ xs <;> simp [List.removeAll, List.eraseDups_cons, h]

/-- The distinct materials that a role has been granted, with their indices, are those that have
been compiled, by their places. -/
theorem eraseDups_granted (role : Shader.Role) (graphs : Keyed Graph) (calls : List Call) :
    (granted role graphs calls).eraseDups =
      ((after graphs calls).materials.compiled role).zipIdx := by
  induction calls using List.reverseRecOn with
  | nil => rfl
  | append_singleton calls c ih =>
    obtain ⟨haccurate, hsound, -⟩ := accurate_after graphs calls
    rw [granted_concat, after_concat]
    cases c with
    | hasEmission name =>
      obtain ⟨-, hmaterials, -⟩ := haccurate.hasEmission name
      show (_ ++ []).eraseDups =
        (((after graphs calls).hasEmission name).2.materials.compiled role).zipIdx
      rw [hmaterials, List.append_nil, ih]
    | emissiveSurfaces =>
      obtain ⟨-, hmaterials, -⟩ := haccurate.emissions (after graphs calls).surfaces
      show (_ ++ []).eraseDups =
        (((after graphs calls).emissions (after graphs calls).surfaces).2.materials.compiled
          role).zipIdx
      rw [hmaterials, List.append_nil, ih]
    | index role' name =>
      have hmem (i : Nat) : (name, i) ∈ granted role graphs calls ↔
          ((after graphs calls).materials.compiled role)[i]? = some name := by
        rw [← List.mem_eraseDups, ih, List.mk_mem_zipIdx_iff_getElem?]
      show (_ ++ (grant? role (.index role' name,
        .index ((after graphs calls).index role' name).1)).toList).eraseDups =
        (((after graphs calls).index role' name).2.materials.compiled role).zipIdx
      rcases haccurate.index_cases hsound role' name with
        ⟨i, hi, heq⟩ | ⟨e, heq⟩ | ⟨hnew, hanswer, hcompiled⟩
      · rw [heq, ← ih]
        by_cases hrole : role' = role
        · subst hrole
          obtain ⟨hlt, hname, -⟩ := List.idxOf?_eq_some_iff.1 hi
          have hold := (hmem i).2 (List.getElem?_eq_some_iff.2 ⟨hlt, hname⟩)
          simp [grant?, eraseDups_concat, hold]
        · simp [grant?, hrole]
      · rw [heq, ← ih]
        exact congrArg List.eraseDups (List.append_nil _)
      · rw [hanswer, hcompiled]
        by_cases hrole : role' = role
        · subst hrole
          have hfresh : (name, ((after graphs calls).materials.compiled role').length) ∉
              granted role' graphs calls := by
            rw [hmem, List.getElem?_eq_none (Nat.le_refl _)]
            exact nofun
          simp [grant?, eraseDups_concat, hfresh, ih, List.zipIdx_append]
        · simp [grant?, hrole, ih]

/-- What has been granted is where it has been compiled. -/
theorem getElem?_of_mem_granted {role : Shader.Role} {graphs : Keyed Graph} {calls : List Call}
    {name : String} {i : Nat} (h : (name, i) ∈ granted role graphs calls) :
    ((after graphs calls).materials.compiled role)[i]? = some name := by
  rw [← List.mem_eraseDups, eraseDups_granted] at h
  exact List.mk_mem_zipIdx_iff_getElem?.1 h

/-- A call for an index that fails leaves everything as it was. -/
theorem Accurate.index_of_error (h : l.Accurate) (hsound : l.materials.Sound) {role : Shader.Role}
    {name : String} {e : Error} (he : (l.index role name).1 = .error e) :
    l.index role name = (.error e, l) := by
  rcases h.index_cases hsound role name with ⟨i, -, heq⟩ | ⟨e', heq⟩ | ⟨-, hanswer, -⟩
  · rw [heq] at he
    cases he
  · rw [heq] at he
    cases he
    exact heq
  · rw [he] at hanswer
    cases hanswer

/-- An index that has been answered is answered again, whatever is asked in between. -/
theorem Accurate.index_again (h : l.Accurate) (hsound : l.materials.Sound) {role : Shader.Role}
    {name : String} {i : Nat} (hi : (l.index role name).1 = .ok i) (later : List Call) :
    (((l.index role name).2.run later).2.index role name).1 = .ok i := by
  obtain ⟨hanswer, hmaterials, haccurate⟩ := h.index role name
  have hfound : ((l.index role name).2.materials.compiled role).idxOf? name = some i := by
    rw [hmaterials]
    exact idxOf?_of_index (Prod.ext (hanswer.symm.trans hi) rfl)
  have hsound' : (l.index role name).2.materials.Sound := by
    rw [hmaterials]
    exact (hsound.step (.index role name)).1
  obtain ⟨hlater, -, hextends⟩ := accurate_run haccurate hsound' later
  rw [index_of_lookup ((hlater.indices role name).trans (hextends.idxOf? hfound))]

/-! ## Main result -/

/-- The answers to some calls, and the notes, agree with what has been compiled. -/
structure Aligned (graphs : Keyed Graph) (calls : List Call) : Prop where
  /-- A material that has an index is answered with it whenever it is asked for again. -/
  stable : ∀ role name i, ((after graphs calls).index role name).1 = .ok i → ∀ later,
    ((after graphs (calls ++ .index role name :: later)).index role name).1 = .ok i
  /-- Different materials have different indices in a role. -/
  apart : ∀ role name name' i, (name, i) ∈ granted role graphs calls →
    (name', i) ∈ granted role graphs calls → name = name'
  /-- The indices that are granted for a role, each looked at when it is first granted, count from
  zero, and belong to different materials. -/
  dense : ∀ role, ∃ names, names.Nodup ∧
    (granted role graphs calls).eraseDups = names.zipIdx ∧
    (role = .surface → names = (after graphs calls).surfaces)
  /-- The index of a material is that of its function, which has been compiled from its graph. -/
  function : ∀ role name i, (name, i) ∈ granted role graphs calls → ∃ g f,
    graphs.get? name = some g ∧
    ((after graphs calls).shaders.functions.filter (·.role = role))[i]? = some f ∧
    f.title = name ∧ f.Complete g ∧ ((after graphs calls).shaders.table role)[i]? = some f.name
  /-- There is a surface for every entry of the table of surfaces, of the same material. -/
  counted : (after graphs calls).surfaceCount =
    ((after graphs calls).shaders.table .surface).length
  surface : (after graphs calls).surfaces =
    ((after graphs calls).shaders.functions.filter (·.role = .surface)).map (·.title)
  /-- Whether a surface radiates light is said by its graph, whatever has been asked before. -/
  emissive : List.Forall₂
    (fun name flag => ∃ g, graphs.get? name = some g ∧ flag = g.hasSurfaceEmission)
    (after graphs calls).surfaces (after graphs calls).emissiveSurfaces.1
  /-- A call for an index that fails only has its own answer. -/
  rejected : ∀ role name e, ((after graphs calls).index role name).1 = .error e →
    after graphs (calls ++ [.index role name]) = after graphs calls ∧
    ∀ later,
      answers graphs (calls ++ later) =
        answers graphs calls ++ ((after graphs calls).run later).1 ∧
      answers graphs (calls ++ .index role name :: later) =
        answers graphs calls ++ .index (.error e) :: ((after graphs calls).run later).1

/-- Whatever a ledger is asked in whatever order, its answers and its notes agree with what has been
compiled. -/
theorem aligned (graphs : Keyed Graph) (calls : List Call) : Aligned graphs calls := by
  obtain ⟨haccurate, hsound, hgraphs⟩ := accurate_after graphs calls
  refine
    { stable := fun role name i hi later => ?_
      apart := fun role name name' i h h' => ?_
      dense := fun role => ?_
      function := fun role name i h => ?_
      counted := ?_
      surface := haccurate.surfaces
      emissive := ?_
      rejected := fun role name e he => ?_ }
  · rw [after_append]
    exact haccurate.index_again hsound hi later
  · have hname := getElem?_of_mem_granted h
    rw [getElem?_of_mem_granted h'] at hname
    exact (Option.some.inj hname).symm
  · refine ⟨_, hsound.distinct role, eraseDups_granted role graphs calls, ?_⟩
    rintro rfl
    exact haccurate.surfaces.symm
  · have hcompiled := getElem?_of_mem_granted h
    rw [Materials.compiled, List.getElem?_map, Option.map_eq_some_iff] at hcompiled
    obtain ⟨f, hf, rfl⟩ := hcompiled
    obtain ⟨g, hg, hcomplete⟩ :=
      hsound.complete f (List.mem_of_mem_filter (List.mem_of_getElem? hf))
    refine ⟨g, f, hgraphs ▸ hg, hf, rfl, hcomplete, ?_⟩
    rw [Shader.Library.table, List.getElem?_map]
    exact congrArg (Option.map _) hf
  · rw [surfaceCount, haccurate.surfaces]
    exact (length_table _ _).symm
  · rw [emissiveSurfaces, (haccurate.emissions _).1, List.forall₂_map_right_iff,
      List.forall₂_same]
    intro name hname
    rw [haccurate.surfaces] at hname
    obtain ⟨f, hf, rfl⟩ := List.mem_map.1 hname
    obtain ⟨g, hg, -⟩ := hsound.complete f (List.mem_of_mem_filter hf)
    refine ⟨g, hgraphs ▸ hg, ?_⟩
    rw [Materials.hasEmission, hg]
  · have hsame := haccurate.index_of_error hsound he
    have hstep : (after graphs calls).step (.index role name) =
        (.index (.error e), after graphs calls) := congrArg (Prod.map Answer.index id) hsame
    refine ⟨?_, fun later => ⟨answers_append graphs calls later, ?_⟩⟩
    · rw [after_concat, hstep]
    · rw [answers_append, run, hstep]

end Ledger

end Materials

end Candela
