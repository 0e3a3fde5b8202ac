import Candela.Mesh.Ply
import Candela.Proofs.Result

/-!
# Meshes that are read

A source of meshes is closed if no triangle of a mesh names a vertex that the mesh does not have
(`Source.Closed`). A triangle whose vertices are looked up later names the same vertices, as many
places further on (`Face.of_rebase`).

A body is read word by word: each vertex takes the next eight words (`vertex_eq_ok`) and each
triangle the next five (`face_eq_ok`). So the words of a body that is read are those of its mesh, one
behind the other, and any others (`body_eq_ok`). Where a word stands says what it has to be, and a
body is not read if a word is missing or something else (`Defect.not_contents`). The meshes of files
name their own vertices (`Source.closed_ofFiles`).
-/

namespace Candela.Mesh

/-! ## Vertices that are named -/

/-- The triangles of every mesh name vertices of the mesh, whose number is a word. -/
def Source.Closed (source : Source) : Prop :=
  ∀ path h (mesh : Mesh h), source.load path h = .ok mesh → h.vertices < wordValues →
    ∀ f ∈ mesh.faces, ∀ i ∈ f.corners, i.toNat < h.vertices

/-- Meshes that are kept in memory name their own vertices if their triangles have been made so. -/
theorem Source.closed_ofArrays {find : String → Option (Array Vertex × Array Face)}
    (hfind : ∀ path vertices faces, find path = some (vertices, faces) →
      ∀ f ∈ faces, ∀ i ∈ f.corners, i.toNat < vertices.size) : (Source.ofArrays find).Closed := by
  intro path h mesh hload _ f hf i hi
  rw [ofArrays] at hload
  dsimp only at hload
  split at hload
  next vertices faces hpath =>
    rw [Mesh.ofArrays] at hload
    split at hload
    next heq =>
      cases hload
      exact heq.1 ▸ hfind path vertices faces hpath f ((Vector.mem_toArray_iff f _).2 hf) i hi
    next => cases hload
  next => cases hload

/-! ## Triangles that are moved -/

/-- An index is moved by the base, and no word is too small for it. -/
theorem toNat_of_rebaseIndex {base index moved : UInt32} (h : rebaseIndex base index = .ok moved) :
    moved.toNat = base.toNat + index.toNat := by
  obtain ⟨n, hword, hpure⟩ := bind_eq_ok.1 h
  obtain rfl := pure_eq_ok.1 hpure
  obtain ⟨hlt, -⟩ := inWord_eq_ok.1 hword
  rw [UInt32.toNat_add, Nat.add_comm base.toNat]
  exact Nat.mod_eq_of_lt hlt

/-- All vertices of a triangle are moved by the base. -/
theorem Face.of_rebase {f moved : Face} {base : UInt32} (h : f.rebase base = .ok moved) :
    List.Forall₂ (fun i j => j.toNat = base.toNat + i.toNat) f.corners moved.corners := by
  obtain ⟨a, ha, h⟩ := bind_eq_ok.1 h
  obtain ⟨b, hb, h⟩ := bind_eq_ok.1 h
  obtain ⟨c, hc, hpure⟩ := bind_eq_ok.1 h
  obtain rfl := pure_eq_ok.1 hpure
  exact .cons (toNat_of_rebaseIndex ha)
    (.cons (toNat_of_rebaseIndex hb) (.cons (toNat_of_rebaseIndex hc) .nil))

/-! ## Bodies -/

/-- The numbers of a vertex, in the order of a file. -/
def Vertex.numbers (v : Vertex) : List Float32 :=
  [v.position.x, v.position.y, v.position.z, v.normal.x, v.normal.y, v.normal.z, v.u, v.v]

/-- The numbers of a triangle, in the order of a file: first how many corners it has. -/
def Face.numbers (f : Face) : List UInt32 := [3, f.a, f.b, f.c, f.material]

theorem Vertex.length_numbers (v : Vertex) : v.numbers.length = 8 := rfl

theorem Face.length_numbers (f : Face) : f.numbers.length = 5 := rfl

namespace Ply

variable {α : Type} {words rest : List (List Char)}

/-- Some words stand for some values, one for each. -/
def Spells (parse : List Char → Option α) : List (List Char) → List α → Prop :=
  List.Forall₂ fun word a => parse word = some a

/-- A value is what the next word stands for. -/
theorem value_eq_ok {what : String} {parse : List Char → Option α} {a : α} :
    value what parse words = .ok (a, rest) ↔
      ∃ word, words = word :: rest ∧ parse word = some a := by
  cases words with
  | nil => exact ⟨nofun, nofun⟩
  | cons word words =>
    rw [value]
    cases hparse : parse word with
    | none =>
      refine ⟨nofun, ?_⟩
      rintro ⟨_, heq, hsome⟩
      cases heq
      cases hparse.symm.trans hsome
    | some b =>
      constructor
      · intro h
        cases h
        exact ⟨word, rfl, hparse⟩
      · rintro ⟨_, heq, hsome⟩
        cases heq
        cases hparse.symm.trans hsome
        rfl

/-- What comes after a value is read of the words after it. -/
theorem value_bind_eq_ok {β : Type} {what : String} {parse : List Char → Option α}
    {f : α × List (List Char) → Except Error β} {b : β} :
    (value what parse words >>= f) = .ok b ↔
      ∃ word a rest, words = word :: rest ∧ parse word = some a ∧ f (a, rest) = .ok b := by
  simp only [bind_eq_ok, Prod.exists, value_eq_ok]
  exact ⟨fun ⟨a, rest, ⟨word, heq, hparse⟩, h⟩ => ⟨word, a, rest, heq, hparse, h⟩,
    fun ⟨word, a, rest, heq, hparse, h⟩ => ⟨a, rest, ⟨word, heq, hparse⟩, h⟩⟩

/-- A vertex is what the next eight words stand for. -/
theorem vertex_eq_ok {v : Vertex} :
    vertex words = .ok (v, rest) ↔
      ∃ front, words = front ++ rest ∧ Spells Text.single? front v.numbers := by
  constructor
  · intro h
    obtain ⟨wx, x, _, rfl, hx, h⟩ := value_bind_eq_ok.1 h
    obtain ⟨wy, y, _, rfl, hy, h⟩ := value_bind_eq_ok.1 h
    obtain ⟨wz, z, _, rfl, hz, h⟩ := value_bind_eq_ok.1 h
    obtain ⟨wnx, nx, _, rfl, hnx, h⟩ := value_bind_eq_ok.1 h
    obtain ⟨wny, ny, _, rfl, hny, h⟩ := value_bind_eq_ok.1 h
    obtain ⟨wnz, nz, _, rfl, hnz, h⟩ := value_bind_eq_ok.1 h
    obtain ⟨wu, u, _, rfl, hu, h⟩ := value_bind_eq_ok.1 h
    obtain ⟨wv, v, _, rfl, hv, h⟩ := value_bind_eq_ok.1 h
    cases pure_eq_ok.1 h
    exact ⟨[wx, wy, wz, wnx, wny, wnz, wu, wv], rfl, .cons hx (.cons hy (.cons hz
      (.cons hnx (.cons hny (.cons hnz (.cons hu (.cons hv .nil)))))))⟩
  · rintro ⟨front, rfl, h⟩
    rcases h with _ | ⟨hx, _ | ⟨hy, _ | ⟨hz, _ | ⟨hnx, _ | ⟨hny, _ | ⟨hnz, h⟩⟩⟩⟩⟩⟩
    rcases h with _ | ⟨hu, _ | ⟨hv, h⟩⟩
    cases h
    refine value_bind_eq_ok.2 ⟨_, _, _, rfl, hx, ?_⟩
    refine value_bind_eq_ok.2 ⟨_, _, _, rfl, hy, ?_⟩
    refine value_bind_eq_ok.2 ⟨_, _, _, rfl, hz, ?_⟩
    refine value_bind_eq_ok.2 ⟨_, _, _, rfl, hnx, ?_⟩
    refine value_bind_eq_ok.2 ⟨_, _, _, rfl, hny, ?_⟩
    refine value_bind_eq_ok.2 ⟨_, _, _, rfl, hnz, ?_⟩
    refine value_bind_eq_ok.2 ⟨_, _, _, rfl, hu, ?_⟩
    exact value_bind_eq_ok.2 ⟨_, _, _, rfl, hv, rfl⟩

/-- A triangle is what the next five words stand for, the first of which is how many corners it has.
Its corners are below the count. -/
theorem face_eq_ok {count : UInt32} {f : Face} :
    face count words = .ok (f, rest) ↔
      ∃ front, words = front ++ rest ∧ Spells Text.word? front f.numbers ∧
        ∀ i ∈ f.corners, i < count := by
  constructor
  · intro h
    obtain ⟨wsize, size, _, rfl, hsize, h⟩ := value_bind_eq_ok.1 h
    dsimp only at h
    split at h
    · cases h
    next hne =>
    obtain ⟨wa, a, _, rfl, ha, h⟩ := value_bind_eq_ok.1 h
    obtain ⟨wb, b, _, rfl, hb, h⟩ := value_bind_eq_ok.1 h
    obtain ⟨wc, c, _, rfl, hc, h⟩ := value_bind_eq_ok.1 h
    dsimp only at h
    split at h
    · cases h
    next hnone =>
    have hlt : ∀ i ∈ [a, b, c], i < count := fun i hi => by
      simpa using List.find?_eq_none.1 (Option.eq_none_iff_forall_ne_some.2 hnone) i hi
    obtain ⟨wm, m, _, rfl, hm, h⟩ := value_bind_eq_ok.1 h
    cases pure_eq_ok.1 h
    rw [not_not.1 hne] at hsize
    exact ⟨[wsize, wa, wb, wc, wm], rfl,
      .cons hsize (.cons ha (.cons hb (.cons hc (.cons hm .nil)))), hlt⟩
  · rintro ⟨front, rfl, h, hlt⟩
    rcases h with _ | ⟨hsize, _ | ⟨ha, _ | ⟨hb, _ | ⟨hc, _ | ⟨hm, h⟩⟩⟩⟩⟩
    cases h
    have hfind : [f.a, f.b, f.c].find? (count ≤ ·) = none :=
      List.find?_eq_none.2 fun i hi => by simpa using hlt i hi
    refine value_bind_eq_ok.2 ⟨_, _, _, rfl, hsize, ?_⟩
    dsimp only
    rw [if_neg (not_not.2 rfl)]
    refine value_bind_eq_ok.2 ⟨_, _, _, rfl, ha, ?_⟩
    refine value_bind_eq_ok.2 ⟨_, _, _, rfl, hb, ?_⟩
    refine value_bind_eq_ok.2 ⟨_, _, _, rfl, hc, ?_⟩
    dsimp only
    rw [hfind]
    exact value_bind_eq_ok.2 ⟨_, _, _, rfl, hm, rfl⟩

/-- A value is read of as many words as stand for it, and they are what it is read of. -/
def Takes (read : Read α) (R : List (List Char) → α → Prop) : Prop :=
  ∀ words a rest, read words = .ok (a, rest) ↔ ∃ front, words = front ++ rest ∧ R front a

/-- The values that are read after some others. -/
theorem many_append_eq_ok {read : Read α} {R : List (List Char) → α → Prop}
    (hread : Takes read R) {n : Nat} {v : Vector α n} (k : Nat) (done : Array α)
    (hk : done.size + k = n) :
    many read k done hk words = .ok (v, rest) ↔
      ∃ fronts l, words = fronts.flatten ++ rest ∧ List.Forall₂ R fronts l ∧
        v.toList = done.toList ++ l := by
  have hlength : v.toList.length = n := Vector.length_toList
  induction k generalizing done words with
  | zero =>
    rw [many]
    constructor
    · intro h
      cases h
      exact ⟨[], [], rfl, .nil, (List.append_nil _).symm⟩
    · rintro ⟨fronts, l, rfl, hall, hv⟩
      -- there is no room for more than what is done
      have hnil : l = [] := by
        rw [hv, List.length_append, Array.length_toList] at hlength
        exact List.eq_nil_of_length_eq_zero (by omega)
      subst hnil
      cases hall
      have hdone : v = ⟨done, by omega⟩ := Vector.toList_inj.1 (by simpa using hv)
      rw [hdone]
      rfl
  | succ k ih =>
    rw [many]
    constructor
    · intro h
      cases hfirst : read words with
      | error e =>
        rw [hfirst] at h
        cases h
      | ok first =>
        rw [hfirst] at h
        obtain ⟨front, rfl, hR⟩ := (hread _ _ _).1 hfirst
        obtain ⟨fronts, l, heq, hall, hv⟩ := (ih _ _).1 h
        refine ⟨front :: fronts, first.1 :: l, ?_, .cons hR hall, ?_⟩
        · rw [heq, List.flatten_cons, List.append_assoc]
        · rw [hv, Array.toList_push, List.append_assoc, List.singleton_append]
    · rintro ⟨fronts, l, rfl, hall, hv⟩
      cases hall with
      | nil =>
        rw [hv, List.length_append, Array.length_toList] at hlength
        simp only [List.length_nil] at hlength
        omega
      | @cons front a fronts l hR hall =>
        have hfirst : read ((front :: fronts).flatten ++ rest) = .ok (a, fronts.flatten ++ rest) :=
          (hread _ _ _).2 ⟨front, by rw [List.flatten_cons, List.append_assoc], hR⟩
        rw [hfirst]
        refine (ih _ _).2 ⟨fronts, l, rfl, hall, ?_⟩
        rw [hv, Array.toList_push, List.append_assoc, List.singleton_append]

/-- As many values as are wanted are read one after the other. -/
theorem many_eq_ok {read : Read α} {R : List (List Char) → α → Prop}
    (hread : Takes read R) {n : Nat} {v : Vector α n} :
    many read n #[] (Nat.zero_add n) words = .ok (v, rest) ↔
      ∃ fronts, words = fronts.flatten ++ rest ∧ List.Forall₂ R fronts v.toList := by
  rw [many_append_eq_ok hread]
  constructor
  · rintro ⟨fronts, l, heq, hall, hv⟩
    rw [show v.toList = l from hv]
    exact ⟨fronts, heq, hall⟩
  · rintro ⟨fronts, heq, hall⟩
    exact ⟨fronts, _, heq, hall, rfl⟩

/-- Some words are those of a vertex. -/
def SpellsVertex (words : List (List Char)) (v : Vertex) : Prop :=
  Spells Text.single? words v.numbers

/-- Some words are those of a triangle of a mesh with some number of vertices, which is known as a
32-bit word. -/
def SpellsFace (vertexCount : Nat) (words : List (List Char)) (f : Face) : Prop :=
  Spells Text.word? words f.numbers ∧ ∀ i ∈ f.corners, i.toNat < vertexCount % wordValues

/-- The words of a body: those of its vertices, those of its triangles and any others. -/
def Contents {h : Header} (mesh : Mesh h) (words : List (List Char)) : Prop :=
  ∃ vertices faces trailing, words = vertices.flatten ++ (faces.flatten ++ trailing) ∧
    List.Forall₂ SpellsVertex vertices mesh.vertices.toList ∧
    List.Forall₂ (SpellsFace h.vertices) faces mesh.faces.toList

/-- Bodies are read as what their words stand for. -/
theorem body_eq_ok {h : Header} {mesh : Mesh h} :
    body h words = .ok mesh ↔ Contents mesh words := by
  have hvertex : Takes vertex SpellsVertex := fun _ _ _ => vertex_eq_ok
  have hface : Takes (face h.vertices.toUInt32) (SpellsFace h.vertices) := fun _ _ _ => by
    simp only [face_eq_ok, UInt32.lt_iff_toNat_lt]
    rfl
  constructor
  · intro heq
    obtain ⟨⟨vertices, _⟩, hvertices, heq⟩ := bind_eq_ok.1 heq
    obtain ⟨⟨faces, trailing⟩, hfaces, hpure⟩ := bind_eq_ok.1 heq
    cases pure_eq_ok.1 hpure
    obtain ⟨vertexWords, hwords, hallv⟩ := (many_eq_ok hvertex).1 hvertices
    obtain ⟨faceWords, rfl, hallf⟩ := (many_eq_ok hface).1 hfaces
    exact ⟨vertexWords, faceWords, trailing, hwords, hallv, hallf⟩
  · rintro ⟨vertexWords, faceWords, trailing, hwords, hallv, hallf⟩
    have hvertices := (many_eq_ok hvertex).2 ⟨vertexWords, hwords, hallv⟩
    refine bind_eq_ok.2 ⟨_, hvertices, ?_⟩
    exact bind_eq_ok.2 ⟨_, (many_eq_ok hface).2 ⟨faceWords, rfl, hallf⟩, rfl⟩

/-! ## What stands where -/

section

variable {β : Type} {parse : List Char → Option α} {numbers : β → List α} {k : Nat}
  {fronts : List (List (List Char))} {values : List β}

/-- The words of values with equally many numbers are in blocks of one length. -/
theorem exists_getElem?_flatten (hlength : ∀ b, (numbers b).length = k)
    (hall : List.Forall₂ (fun ws b => Spells parse ws (numbers b)) fronts values)
    {i j : Nat} {b : β} (hi : values[i]? = some b) (hj : j < k) :
    ∃ word a, fronts.flatten[k * i + j]? = some word ∧ (numbers b)[j]? = some a ∧
      parse word = some a := by
  induction hall generalizing i with
  | nil => cases hi
  | @cons front _ fronts values hfront _ ih =>
    have hk : front.length = k := by rw [hfront.length_eq, hlength]
    rw [List.flatten_cons]
    cases i with
    | zero =>
      cases hi
      obtain ⟨a, ha⟩ : ∃ a, (numbers b)[j]? = some a :=
        ⟨_, List.getElem?_eq_getElem (by rw [hlength]; exact hj)⟩
      obtain ⟨word, hword, hparse⟩ := forall₂_getElem? hfront.flip ha
      refine ⟨word, a, ?_, ha, hparse⟩
      rw [Nat.mul_zero, Nat.zero_add, List.getElem?_append_left (by omega)]
      exact hword
    | succ i =>
      obtain ⟨word, a, hword, ha, hparse⟩ := ih hi
      refine ⟨word, a, ?_, ha, hparse⟩
      have hindex : k * (i + 1) + j = k + (k * i + j) := by
        rw [Nat.mul_succ]
        omega
      rw [hindex, List.getElem?_append_right (by omega), hk, Nat.add_sub_cancel_left]
      exact hword

/-- The blocks of some values are as long as all their numbers. -/
theorem length_flatten (hlength : ∀ b, (numbers b).length = k)
    (hall : List.Forall₂ (fun ws b => Spells parse ws (numbers b)) fronts values) :
    fronts.flatten.length = k * values.length := by
  induction hall with
  | nil => rfl
  | @cons front b fronts values hfront _ ih =>
    rw [List.flatten_cons, List.length_append, ih, hfront.length_eq, hlength, List.length_cons,
      Nat.mul_succ, Nat.add_comm]

end

variable {h : Header} {mesh : Mesh h}

/-- The words of the vertices come first. -/
theorem Contents.exists_vertex (hmesh : Contents mesh words) {i j : Nat} (hi : i < h.vertices)
    (hj : j < 8) :
    ∃ word a, words[8 * i + j]? = some word ∧ mesh.vertices[i].numbers[j]? = some a ∧
      Text.single? word = some a := by
  obtain ⟨vertices, faces, trailing, rfl, hvertices, -⟩ := hmesh
  have hv : mesh.vertices.toList[i]? = some mesh.vertices[i] := by simp [hi]
  obtain ⟨word, a, hword, ha, hparse⟩ :=
    exists_getElem?_flatten Vertex.length_numbers hvertices hv hj
  refine ⟨word, a, ?_, ha, hparse⟩
  rw [List.getElem?_append_left (List.getElem?_eq_some_iff.1 hword).1, hword]

/-- The words of the triangles come after those of the vertices. -/
theorem Contents.exists_face (hmesh : Contents mesh words) {i j : Nat} (hi : i < h.faces)
    (hj : j < 5) :
    ∃ word a, words[8 * h.vertices + (5 * i + j)]? = some word ∧
      mesh.faces[i].numbers[j]? = some a ∧ Text.word? word = some a := by
  obtain ⟨vertices, faces, trailing, rfl, hvertices, hfaces⟩ := hmesh
  have hf : mesh.faces.toList[i]? = some mesh.faces[i] := by simp [hi]
  have hspells := hfaces.imp fun _ _ hspells => hspells.1
  obtain ⟨word, a, hword, ha, hparse⟩ :=
    exists_getElem?_flatten Face.length_numbers hspells hf hj
  refine ⟨word, a, ?_, ha, hparse⟩
  have hlength : vertices.flatten.length = 8 * h.vertices := by
    rw [length_flatten Vertex.length_numbers hvertices, Vector.length_toList]
  rw [List.getElem?_append_right (by omega), hlength, Nat.add_sub_cancel_left,
    List.getElem?_append_left (List.getElem?_eq_some_iff.1 hword).1, hword]

/-- The first words are numbers. -/
theorem Contents.exists_number (hmesh : Contents mesh words) {i : Nat} (hi : i < 8 * h.vertices) :
    ∃ word a, words[i]? = some word ∧ Text.single? word = some a := by
  obtain ⟨word, a, hword, -, ha⟩ :=
    hmesh.exists_vertex (i := i / 8) (j := i % 8) (by omega) (by omega)
  rw [Nat.div_add_mod] at hword
  exact ⟨word, a, hword, ha⟩

/-- The words after them are numerals. -/
theorem Contents.exists_numeral (hmesh : Contents mesh words) {i : Nat} (hi : i < 5 * h.faces) :
    ∃ word n, words[8 * h.vertices + i]? = some word ∧ Text.word? word = some n := by
  obtain ⟨word, n, hword, -, hn⟩ :=
    hmesh.exists_face (i := i / 5) (j := i % 5) (by omega) (by omega)
  rw [Nat.div_add_mod] at hword
  exact ⟨word, n, hword, hn⟩

/-- The triangles name vertices of the mesh. -/
theorem Contents.lt_of_mem (hmesh : Contents mesh words) (hvertices : h.vertices < wordValues)
    {f : Face} (hf : f ∈ mesh.faces) : ∀ i ∈ f.corners, i.toNat < h.vertices := by
  obtain ⟨-, faces, -, -, -, hfaces⟩ := hmesh
  obtain ⟨k, hk⟩ := List.getElem?_of_mem (Vector.mem_toList_iff.2 hf)
  obtain ⟨front, -, -, hlt⟩ := forall₂_getElem? hfaces.flip hk
  rwa [Nat.mod_eq_of_lt hvertices] at hlt

/-- The words that name the corners of a triangle name vertices of the mesh. -/
theorem Contents.lt_of_corner (hmesh : Contents mesh words) (hvertices : h.vertices < wordValues)
    {i j : Nat} {word : List Char} {n : UInt32} (hi : i < h.faces) (hj : j < 3)
    (hword : words[8 * h.vertices + (5 * i + (j + 1))]? = some word)
    (hn : Text.word? word = some n) : n.toNat < h.vertices := by
  obtain ⟨word', n', hword', hn', hparse⟩ := hmesh.exists_face hi (j := j + 1) (by omega)
  cases hword.symm.trans hword'
  cases hn.symm.trans hparse
  have hmem : n ∈ mesh.faces[i].corners := by
    rw [Face.numbers, List.getElem?_cons_succ] at hn'
    match j, hj with
    | 0, _ => cases hn'; simp [Face.corners]
    | 1, _ => cases hn'; simp [Face.corners]
    | 2, _ => cases hn'; simp [Face.corners]
  exact hmesh.lt_of_mem hvertices (Vector.getElem_mem hi) n hmem

/-- What can be wrong with the words of a body: one is missing, one is no number, one that has to be
three is not, or one that has to name a vertex does not. -/
inductive Defect (h : Header) (words : List (List Char)) : Prop
  | short (hlength : words.length < 8 * h.vertices + 5 * h.faces)
  | number {i : Nat} {word : List Char} (hi : i < 8 * h.vertices) (hword : words[i]? = some word)
    (hnone : Text.single? word = none)
  | numeral {i : Nat} {word : List Char} (hi : i < 5 * h.faces)
    (hword : words[8 * h.vertices + i]? = some word) (hnone : Text.word? word = none)
  | size {i : Nat} {word : List Char} {n : UInt32} (hi : i < h.faces)
    (hword : words[8 * h.vertices + 5 * i]? = some word) (hn : Text.word? word = some n)
    (hne : n ≠ 3)
  | corner {i j : Nat} {word : List Char} {n : UInt32} (hi : i < h.faces) (hj : j < 3)
    (hword : words[8 * h.vertices + (5 * i + (j + 1))]? = some word)
    (hn : Text.word? word = some n) (hle : h.vertices ≤ n.toNat)

/-- A body with a defect is not that of a mesh. -/
theorem Defect.not_contents (hdefect : Defect h words) (hvertices : h.vertices < wordValues) :
    ¬ Contents mesh words := by
  intro hmesh
  cases hdefect with
  | short hlength =>
    have hnone : words[words.length]? = none := List.getElem?_eq_none (Nat.le_refl _)
    by_cases hi : words.length < 8 * h.vertices
    · obtain ⟨word, a, hword, -⟩ := hmesh.exists_number hi
      cases hnone.symm.trans hword
    · obtain ⟨word, n, hword, -⟩ :=
        hmesh.exists_numeral (i := words.length - 8 * h.vertices) (by omega)
      rw [Nat.add_sub_cancel' (Nat.not_lt.1 hi)] at hword
      cases hnone.symm.trans hword
  | number hi hword hnone =>
    obtain ⟨word, a, hword', ha⟩ := hmesh.exists_number hi
    cases hword.symm.trans hword'
    cases hnone.symm.trans ha
  | numeral hi hword hnone =>
    obtain ⟨word, n, hword', hn⟩ := hmesh.exists_numeral hi
    cases hword.symm.trans hword'
    cases hnone.symm.trans hn
  | size hi hword hn hne =>
    obtain ⟨word, n, hword', hthree, hparse⟩ := hmesh.exists_face hi (j := 0) (by decide)
    cases hword.symm.trans hword'
    cases hn.symm.trans hparse
    exact hne (Option.some.inj hthree).symm
  | corner hi hj hword hn hle =>
    exact absurd (hmesh.lt_of_corner hvertices hi hj hword hn) (Nat.not_lt.2 hle)

/-! ## Files -/

/-- A file is read as the mesh of its body if its header is accepted with the given counts. -/
theorem load_eq_ok {bytes : List UInt8} {h : Header} {mesh : Mesh h} :
    load bytes h = .ok mesh ↔ h.canStore = true ∧ ∃ rest text,
      splitHeader bytes = .ok (h, rest) ∧ Text.decode? rest = some text ∧
        Contents mesh (Text.words Text.isAsciiBlank text.toList) := by
  constructor
  · intro hload
    rw [load] at hload
    split at hload
    · cases hload
    next hstore =>
    obtain ⟨⟨found, rest⟩, hsplit, hload⟩ := bind_eq_ok.1 hload
    dsimp only at hload
    split at hload
    · cases hload
    next hfound =>
    obtain rfl := not_not.1 hfound
    split at hload
    · cases hload
    next text htext =>
    exact ⟨by simpa using hstore, rest, text, hsplit, htext, body_eq_ok.1 hload⟩
  · rintro ⟨hstore, rest, text, hsplit, htext, hcontents⟩
    rw [load, hstore]
    refine bind_eq_ok.2 ⟨_, hsplit, ?_⟩
    dsimp only
    rw [if_neg (not_not.2 rfl), htext]
    exact body_eq_ok.2 hcontents

end Ply

/-- The meshes of files name their own vertices: every triangle is looked at when it is read. -/
theorem Source.closed_ofFiles (read : String → Option (List UInt8)) :
    (Source.ofFiles read).Closed := by
  intro path h mesh hload hword f hf
  rw [ofFiles] at hload
  dsimp only at hload
  split at hload
  next bytes _ =>
    obtain ⟨-, rest, text, -, -, hcontents⟩ := Ply.load_eq_ok.1 hload
    exact hcontents.lt_of_mem hword hf
  next => cases hload

end Candela.Mesh
