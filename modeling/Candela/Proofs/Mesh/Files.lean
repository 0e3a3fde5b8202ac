import Candela.Proofs.Mesh.Body
import Candela.Proofs.Mesh.Layout

/-!
# Mesh files that are read

Which files are read is said by `accepts_iff`: the lines of the header are tallied, and the words
after them are the mesh. The layout of the exporter is among what is accepted, but a header is not
held against it. So properties that are declared in another order are read as if they were in the
order of the exporter (`read_not_exported`).

A file in the layout of the exporter is read as the mesh that it was written from, whatever comments
and blanks it has, and a body with a defect is not read (`load_exported`).
-/

namespace Candela.Mesh

/-- What can be stored can be counted. -/
theorem Header.lt_of_canStore {h : Header} (hstore : h.canStore = true) :
    h.vertices < 2 ^ 64 ∧ h.faces < 2 ^ 64 := by
  obtain ⟨hv, hf⟩ := Bool.and_eq_true_iff.1 hstore
  have hv : h.vertices * 32 ≤ maxBytes := of_decide_eq_true hv
  have hf : h.faces * 16 ≤ maxBytes := of_decide_eq_true hf
  unfold maxBytes at hv hf
  omega

/-- The words of a triangle: its numbers in decimal. -/
def Face.words (f : Face) : List (List Char) := f.numbers.map fun n => (toString n.toNat).toList

namespace Ply

/-- The header of a file is read as what comes before its body. -/
theorem header_eq_ok {bytes : List UInt8} {h : Header} :
    header bytes = .ok h ↔ ∃ rest, splitHeader bytes = .ok (h, rest) := by
  simp [header, map_eq_ok]

/-! ## Files that are written -/

/-- A text of some lines. -/
def unlines (lines : List (List Char)) : List Char := lines.flatMap (· ++ ['\n'])

/-- A text of lines begins with them when it is written as bytes. -/
theorem begins_encode {lines : List (List Char)} (h : ∀ line ∈ lines, '\n' ∉ line)
    (body : List Char) :
    Begins (Text.encode (unlines lines ++ body)) lines (Text.encode body) := by
  induction lines with
  | nil => exact .nil _
  | cons line lines ih =>
    obtain ⟨hline, hlines⟩ := List.forall_mem_cons.1 h
    have hbytes : Text.encode (unlines (line :: lines) ++ body) =
        Text.encode line ++ 0x0a :: Text.encode (unlines lines ++ body) := by
      simp only [unlines, List.flatMap_cons, List.append_assoc, Text.encode_append]
      rfl
    have hbegins := Begins.cons (Text.notMem_encode hline) (Text.decode?_encode line) (ih hlines)
    rw [String.toList_ofList] at hbegins
    rwa [hbytes]

section

variable {first last : List Char} {lines : List (List Char)} {h : Header}

/-- The body of a file that is written begins behind the last line of its header. -/
theorem splitHeader_encode (hnewline : ∀ line ∈ first :: (lines ++ [last]), '\n' ∉ line)
    (hacc : Accepted first lines last h) (body : List Char) :
    splitHeader (Text.encode (unlines (first :: (lines ++ [last])) ++ body)) =
      .ok (h, Text.encode body) :=
  splitHeader_eq_ok.2 ⟨first, lines, last, begins_encode hnewline body, hacc⟩

/-- A body that is written is read as the mesh that its words stand for. -/
theorem load_encode_eq_ok (hnewline : ∀ line ∈ first :: (lines ++ [last]), '\n' ∉ line)
    (hacc : Accepted first lines last h) (hstore : h.canStore = true) (body : List Char)
    {mesh : Mesh h} :
    load (Text.encode (unlines (first :: (lines ++ [last])) ++ body)) h = .ok mesh ↔
      Contents mesh (Text.words Text.isAsciiBlank body) := by
  have hsplit := splitHeader_encode hnewline hacc body
  rw [load_eq_ok]
  constructor
  · rintro ⟨-, rest, text, hsplit', htext, hcontents⟩
    cases hsplit.symm.trans hsplit'
    cases (Text.decode?_encode body).symm.trans htext
    rwa [String.toList_ofList] at hcontents
  · intro hcontents
    refine ⟨hstore, _, _, hsplit, Text.decode?_encode body, ?_⟩
    rwa [String.toList_ofList]

/-- Triangles are spelled by their numbers in decimal. -/
theorem spellsFace_words {f : Face} (hvertices : h.vertices < wordValues)
    (hcorners : ∀ i ∈ f.corners, i.toNat < h.vertices) : SpellsFace h.vertices f.words f := by
  refine ⟨List.forall₂_map_left_iff.2 (List.forall₂_same.2 fun n _ => Text.word?_toString n), ?_⟩
  rwa [Nat.mod_eq_of_lt hvertices]

/-- A file in the layout of the exporter is read as the mesh that its words spell, if there can be
room for it: the words of the vertices are numbers, those of the triangles are in decimal, and any
other words may follow. A file with such a header whose body has a defect is not read. -/
theorem load_exported (mesh : Mesh h) {vertexWords : List (List (List Char))}
    (hstore : h.canStore = true) (hvertices : h.vertices < wordValues)
    (hcorners : ∀ f ∈ mesh.faces, ∀ i ∈ f.corners, i.toNat < h.vertices)
    (hspells : List.Forall₂ SpellsVertex vertexWords mesh.vertices.toList)
    (hexported : Exported first lines last h)
    (hnewline : ∀ line ∈ first :: (lines ++ [last]), '\n' ∉ line) :
    let bytes body := Text.encode (unlines (first :: (lines ++ [last])) ++ body)
    (∀ body, header (bytes body) = .ok h) ∧
    (∀ body trailing, Text.Spaced Text.isAsciiBlank
      (vertexWords.flatten ++ (mesh.faces.toList.flatMap Face.words ++ trailing)) body →
      load (bytes body) h = .ok mesh) ∧
    (∀ body words, Text.Spaced Text.isAsciiBlank words body → Defect h words →
      ∃ e, load (bytes body) h = .error e) := by
  obtain ⟨hv, hf⟩ := Header.lt_of_canStore hstore
  have hacc := hexported.accepted hv hf
  refine ⟨fun body => header_eq_ok.2 ⟨_, splitHeader_encode hnewline hacc body⟩,
    fun body trailing hbody => ?_, fun body words hbody hdefect => ?_⟩
  · rw [load_encode_eq_ok hnewline hacc hstore, hbody.words_eq]
    refine ⟨vertexWords, mesh.faces.toList.map Face.words, trailing, rfl, hspells, ?_⟩
    refine List.forall₂_map_left_iff.2 (List.forall₂_same.2 fun f hf => ?_)
    exact spellsFace_words hvertices (hcorners f (Vector.mem_toList_iff.1 hf))
  · cases hload : load (Text.encode (unlines (first :: (lines ++ [last])) ++ body)) h with
    | error e => exact ⟨e, rfl⟩
    | ok mesh' =>
      rw [load_encode_eq_ok hnewline hacc hstore, hbody.words_eq] at hload
      exact absurd hload (hdefect.not_contents hvertices)

end

/-- The lines of a header of a triangle between the first and the last one. -/
def triangleLines : List (List Char) :=
  ["format ascii 1.0\r", "comment exported\r", " element vertex 3", "property float x",
    "property float y", "property float z", "property float nx", "property float ny",
    "property float nz", "property float s", "property float t", "comment one triangle",
    "element face 1\t", "property list uchar uint vertex_indices",
    "property uchar material_index"].map String.toList

/-- The triangle. -/
def triangle : Mesh ⟨3, 1⟩ where
  vertices :=
    let zero : Float32 := .ofBits 0
    let one : Float32 := .ofBits 0x3f800000
    #v[⟨⟨zero, zero, zero⟩, ⟨zero, zero, one⟩, zero, zero⟩,
      ⟨⟨one, zero, zero⟩, ⟨zero, zero, one⟩, one, zero⟩,
      ⟨⟨zero, one, zero⟩, ⟨zero, zero, one⟩, zero, one⟩]
  faces := #v[⟨0, 1, 2, 1⟩]

/-- The numbers of its vertices and of itself. -/
def triangleBody : List Char :=
  "0 0 0 0 0 1 0 0\n1 0 0 0 0 1 1 0\n0 1 0 0 0 1 0 1\n3 0 1 2 1\n".toList

theorem exported_triangle : Exported "ply".toList triangleLines "end_header".toList ⟨3, 1⟩ where
  first := by decide
  lines := .cons (by decide) <| .comment (by decide) <| .cons (by decide) <| .cons (by decide) <|
    .cons (by decide) <| .cons (by decide) <| .cons (by decide) <| .cons (by decide) <|
    .cons (by decide) <| .cons (by decide) <| .cons (by decide) <| .comment (by decide) <|
    .cons (by decide) <| .cons (by decide) <| .cons (by decide) .nil
  last := by decide

theorem spells_triangle : List.Forall₂ SpellsVertex
    ["00000100".toList.map ([·]), "10000110".toList.map ([·]), "01000101".toList.map ([·])]
    triangle.vertices.toList := by
  have hzero : Text.single? ['0'] = some (.ofBits 0) := by decide
  have hone : Text.single? ['1'] = some (.ofBits 0x3f800000) := by decide
  simp [SpellsVertex, Spells, triangle, Vertex.numbers, hzero, hone]

theorem corners_triangle : ∀ f ∈ triangle.faces, ∀ i ∈ f.corners, i.toNat < 3 := by
  simp [triangle, Face.corners]

theorem load_triangle :
    let bytes body :=
      Text.encode (unlines ("ply".toList :: (triangleLines ++ ["end_header".toList])) ++ body)
    header (bytes triangleBody) = .ok ⟨3, 1⟩ ∧ load (bytes triangleBody) ⟨3, 1⟩ = .ok triangle ∧
      ∃ e, load (bytes "0 0 0".toList) ⟨3, 1⟩ = .error e := by
  obtain ⟨hheader, hload, hdefect⟩ := load_exported triangle (by decide) (by decide)
    corners_triangle spells_triangle exported_triangle (by decide)
  exact ⟨hheader _, hload _ [] (by decide),
    hdefect _ _ (Text.spaced_words _ _) (.short (by decide))⟩

/-- Which headers are accepted, and which files are read. Headers in the layout of the exporter are
accepted with the counts that they declare. -/
theorem accepts_iff (bytes : List UInt8) (h : Header) :
    (header bytes = .ok h ↔ ∃ first lines last rest,
      Begins bytes (first :: (lines ++ [last])) rest ∧ Accepted first lines last h) ∧
    (∀ mesh : Mesh h, load bytes h = .ok mesh ↔ h.canStore = true ∧
      ∃ first lines last rest text, Begins bytes (first :: (lines ++ [last])) rest ∧
        Accepted first lines last h ∧ Text.decode? rest = some text ∧
        Contents mesh (Text.words Text.isAsciiBlank text.toList)) ∧
    (∀ first lines last rest, Begins bytes (first :: (lines ++ [last])) rest →
      Exported first lines last h → h.vertices < 2 ^ 64 → h.faces < 2 ^ 64 →
      header bytes = .ok h) := by
  have hheader : header bytes = .ok h ↔ ∃ first lines last rest,
      Begins bytes (first :: (lines ++ [last])) rest ∧ Accepted first lines last h := by
    simp only [header_eq_ok, splitHeader_eq_ok]
    exact ⟨fun ⟨rest, first, lines, last, h⟩ => ⟨first, lines, last, rest, h⟩,
      fun ⟨first, lines, last, rest, h⟩ => ⟨rest, first, lines, last, h⟩⟩
  refine ⟨hheader, fun mesh => ?_, fun first lines last rest hbegins hexported hv hf => ?_⟩
  · simp only [load_eq_ok, splitHeader_eq_ok]
    refine and_congr_right fun _ => ⟨?_, ?_⟩
    · rintro ⟨rest, text, ⟨first, lines, last, hbegins, hacc⟩, htext, hcontents⟩
      exact ⟨first, lines, last, rest, text, hbegins, hacc, htext, hcontents⟩
    · rintro ⟨first, lines, last, rest, text, hbegins, hacc, htext, hcontents⟩
      exact ⟨rest, text, ⟨first, lines, last, hbegins, hacc⟩, htext, hcontents⟩
  · exact hheader.2 ⟨first, lines, last, rest, hbegins, hexported.accepted hv hf⟩

/-- The header of the triangle is accepted. -/
theorem accepts_triangle :
    let lines := "ply".toList :: (triangleLines ++ ["end_header".toList])
    header (Text.encode (unlines lines ++ triangleBody)) = .ok ⟨3, 1⟩ :=
  (accepts_iff _ ⟨3, 1⟩).2.2 _ _ _ _ (begins_encode (by decide) triangleBody) exported_triangle
    (by decide) (by decide)

/-- The lines of a header that declares the normal of a vertex before its place. -/
def shuffledLines : List (List Char) :=
  ["format ascii 1.0", "element vertex 3", "property float nx", "property float ny",
    "property float nz", "property float x", "property float y", "property float z",
    "property float s", "property float t", "element face 1",
    "property list uchar uint vertex_indices", "property uchar material_index"].map String.toList

theorem accepted_shuffled : Accepted "ply".toList shuffledLines "end_header".toList ⟨3, 1⟩ where
  first := by decide
  legal := by decide
  last := by decide
  vertices := by decide
  faces := by decide
  properties := by decide

/-- The triangle is read of a file that is not in the layout of the exporter: the places of its
vertices are the numbers that the header declares as normals. -/
theorem read_not_exported :
    let lines := "ply".toList :: (shuffledLines ++ ["end_header".toList])
    let bytes := Text.encode (unlines lines ++ triangleBody)
    header bytes = .ok ⟨3, 1⟩ ∧ load bytes ⟨3, 1⟩ = .ok triangle ∧
      ¬ ∃ first lines last rest h,
        Begins bytes (first :: (lines ++ [last])) rest ∧ Exported first lines last h := by
  have hnewline :
      ∀ line ∈ "ply".toList :: (shuffledLines ++ ["end_header".toList]), '\n' ∉ line := by decide
  have hcontents : Contents triangle (Text.words Text.isAsciiBlank triangleBody) := by
    refine ⟨_, [(⟨0, 1, 2, 1⟩ : Face).words], [], by decide, spells_triangle, ?_⟩
    exact .cons (spellsFace_words (by decide) (corners_triangle _ (by simp [triangle]))) .nil
  refine ⟨header_eq_ok.2 ⟨_, splitHeader_encode hnewline accepted_shuffled _⟩,
    (load_encode_eq_ok hnewline accepted_shuffled (by decide) _).2 hcontents, ?_⟩
  rintro ⟨first, lines, last, rest, h, hbegins, hexported⟩
  have hdeclares : Declares (_ :: _ :: ["property", "float", "x"] :: _) lines := hexported.lines
  have hlength : 13 ≤ lines.length := hexported.lines.length_le
  obtain ⟨more, hmore⟩ := (begins_encode hnewline _).prefix_of_length_le hbegins (by
    simp only [List.length_cons, List.length_append, List.length_nil]
    exact Nat.add_le_add_right (Nat.add_le_add_right hlength 1) 1)
  match lines, hlength with
  | l₁ :: l₂ :: l₃ :: lines, _ =>
    simp only [shuffledLines, List.map_cons, List.cons_append, List.cons.injEq] at hmore
    obtain ⟨-, rfl, rfl, rfl, -⟩ := hmore
    -- the third declaration is that of `x`, but the third line is that of `nx`
    obtain ⟨-, hdeclares⟩ := hdeclares.of_not_comment (by decide)
    obtain ⟨-, hdeclares⟩ := hdeclares.of_not_comment (by decide)
    exact absurd (hdeclares.of_not_comment (by decide)).1 (by decide)

end Ply

end Candela.Mesh
