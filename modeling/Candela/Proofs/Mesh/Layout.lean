import Candela.Proofs.Mesh.Header
import Candela.Proofs.Text.Numeral

/-!
# Headers in the layout of the exporter

What the exporter writes into a header is said without a reader (`Exported`): its declarations, each
on a line of its own, with comments between them and any words behind them. Since neither comments
nor words behind a declaration add anything to what the lines say (`Declares.foldl_next`), such a
header is accepted with the counts that it declares (`Exported.accepted`).
-/

namespace Candela.Mesh

/-- What the exporter declares of a mesh with some counts, line by line. -/
def Header.declarations (h : Header) : List (List String) :=
  [["format", "ascii", "1.0"], ["element", "vertex", toString h.vertices]] ++
  ["x", "y", "z", "nx", "ny", "nz", "s", "t"].map (fun name => ["property", "float", name]) ++
  [["element", "face", toString h.faces], ["property", "list", "uchar", "uint", "vertex_indices"],
    ["property", "uchar", "material_index"]]

namespace Ply

/-- A line begins with some words. -/
def Opens (words : List String) (line : List Char) : Prop :=
  ∃ trailing, Text.Spaced Text.isBlank (words.map String.toList ++ trailing) line

/-- Lines that declare something, each of them a line of its own, with comments anywhere between
them. -/
inductive Declares : List (List String) → List (List Char) → Prop
  | nil : Declares [] []
  /-- A comment comes first. -/
  | comment {said : List (List String)} {line : List Char} {lines : List (List Char)}
    (hline : Opens ["comment"] line) (hlines : Declares said lines) : Declares said (line :: lines)
  /-- A line that declares something comes first. -/
  | cons {words : List String} {said : List (List String)} {line : List Char}
    {lines : List (List Char)} (hline : Opens words line) (hlines : Declares said lines) :
    Declares (words :: said) (line :: lines)

/-- The lines of a header in the layout of the exporter, the first and the last of them apart. -/
structure Exported (first : List Char) (lines : List (List Char)) (last : List Char) (h : Header) :
    Prop where
  first : Text.Spaced Text.isBlank ["ply".toList] first
  lines : Declares h.declarations lines
  last : Opens ["end_header"] last

/-- A line begins with some words if the words that are read of it do. -/
theorem opens_iff {words : List String} {line : List Char} :
    Opens words line ↔ words <+: lineWords line := by
  have hstrings : (words.map String.toList).map String.ofList = words := by simp
  constructor
  · rintro ⟨trailing, h⟩
    rw [lineWords, h.words_eq, List.map_append, hstrings]
    exact List.prefix_append _ _
  · rintro ⟨trailing, h⟩
    refine ⟨trailing.map String.toList, Text.words_eq_iff.1 ?_⟩
    have hchars := congrArg (List.map String.toList) h
    simpa [lineWords, Function.comp_def] using hchars.symm

instance (words : List String) (line : List Char) : Decidable (Opens words line) :=
  decidable_of_iff _ opens_iff.symm

/-- As many lines are needed as there are declarations. -/
theorem Declares.length_le {said : List (List String)} {lines : List (List Char)}
    (h : Declares said lines) : said.length ≤ lines.length := by
  induction h with
  | nil => exact Nat.le_refl 0
  | comment _ _ ih => exact Nat.le_succ_of_le ih
  | cons _ _ ih => exact Nat.succ_le_succ ih

/-- A line that is no comment has to make the next declaration. -/
theorem Declares.of_not_comment {words : List String} {said : List (List String)}
    {line : List Char} {lines : List (List Char)} (h : Declares (words :: said) (line :: lines))
    (hline : ¬ Opens ["comment"] line) : Opens words line ∧ Declares said lines := by
  cases h with
  | comment hcomment => exact absurd hcomment hline
  | cons hopens hlines => exact ⟨hopens, hlines⟩

/-! ## Words behind a declaration -/

section

variable {words : List String}

theorem head?_append (hlength : 3 ≤ words.length) (trailing : List String) :
    (words ++ trailing).head? = words.head? :=
  List.head?_append_of_ne_nil _ (List.ne_nil_of_length_pos (by omega))

theorem declared?_append (hlength : 3 ≤ words.length) (trailing : List String) :
    declared? (words ++ trailing) = declared? words := by
  match words, hlength with
  | a :: b :: c :: rest, _ =>
    by_cases ha : a = "element"
    · subst ha
      rfl
    · rw [declared?_eq_none (by simpa using ha), declared?_eq_none (by simpa using ha)]

theorem Progress.next_append (hlength : 3 ≤ words.length) (trailing : List String) (p : Progress) :
    p.next (words ++ trailing) = p.next words := by
  rw [next, next, declared?_append hlength, head?_append hlength]

theorem Legal.append (hlegal : Legal words) (hlength : 3 ≤ words.length) (trailing : List String) :
    Legal (words ++ trailing) := by
  refine ⟨fun h => ?_, fun h => ?_, ?_⟩
  · rw [List.getElem?_append_left (by omega)]
    exact hlegal.format (head?_append hlength trailing ▸ h)
  · rw [declared?_append hlength]
    exact hlegal.element (head?_append hlength trailing ▸ h)
  · rw [head?_append hlength]
    exact hlegal.notLast

end

section

variable {said : List (List String)} {lines : List (List Char)}

/-- Lines that declare what is legal are legal. -/
theorem Declares.legal (h : Declares said lines)
    (hsaid : ∀ words ∈ said, Legal words ∧ 3 ≤ words.length) :
    ∀ line ∈ lines, Legal (lineWords line) := by
  induction h with
  | nil => exact nofun
  | comment hline _ ih =>
    refine List.forall_mem_cons.2 ⟨?_, ih hsaid⟩
    obtain ⟨trailing, hwords⟩ := opens_iff.1 hline
    exact hwords ▸ legal_comment trailing
  | cons hline _ ih =>
    obtain ⟨⟨hlegal, hlength⟩, hsaid⟩ := List.forall_mem_cons.1 hsaid
    refine List.forall_mem_cons.2 ⟨?_, ih hsaid⟩
    obtain ⟨trailing, hwords⟩ := opens_iff.1 hline
    exact hwords ▸ hlegal.append hlength trailing

/-- Lines say together what they declare. -/
theorem Declares.foldl_next (h : Declares said lines) (hsaid : ∀ words ∈ said, 3 ≤ words.length)
    (p : Progress) :
    (lines.map lineWords).foldl Progress.next p = said.foldl Progress.next p := by
  induction h generalizing p with
  | nil => rfl
  | comment hline _ ih =>
    obtain ⟨trailing, hwords⟩ := opens_iff.1 hline
    rw [List.map_cons, List.foldl_cons, ih hsaid, ← hwords, p.next_eq_self (by simp) (by simp)]
  | cons hline _ ih =>
    obtain ⟨hlength, hsaid⟩ := List.forall_mem_cons.1 hsaid
    obtain ⟨trailing, hwords⟩ := opens_iff.1 hline
    rw [List.map_cons, List.foldl_cons, List.foldl_cons, ih hsaid, ← hwords,
      Progress.next_append hlength]

end

section

variable {h : Header}

/-- A count that fits is declared. -/
theorem declared?_element {name : String} {e : Element} (hname : Element.named? name = some e)
    {n : Nat} (hn : n < 2 ^ 64) : declared? ["element", name, toString n] = some (e, n) := by
  rw [declared?, hname, Text.count?_toString hn]
  rfl

/-- What the exporter declares is legal. -/
theorem legal_of_mem_declarations (hv : h.vertices < 2 ^ 64) (hf : h.faces < 2 ^ 64) :
    ∀ words ∈ h.declarations, Legal words ∧ 3 ≤ words.length := by
  have helement : ∀ {words e}, words.head? = some "element" → declared? words = some e →
      Legal words := fun hhead he =>
    ⟨by simp [hhead], fun _ => Option.isSome_of_eq_some he, by simp [hhead]⟩
  intro words hwords
  simp only [Header.declarations, List.mem_append, List.mem_cons, List.mem_map, List.not_mem_nil,
    or_false] at hwords
  rcases hwords with ((rfl | rfl) | ⟨name, -, rfl⟩) | rfl | rfl | rfl
  · exact ⟨⟨fun _ => rfl, by simp, by simp⟩, Nat.le_refl 3⟩
  · exact ⟨helement rfl (declared?_element rfl hv), Nat.le_refl 3⟩
  · exact ⟨legal_property _, Nat.le_refl 3⟩
  · exact ⟨helement rfl (declared?_element rfl hf), Nat.le_refl 3⟩
  · exact ⟨legal_property _, by simp⟩
  · exact ⟨legal_property _, Nat.le_refl 3⟩

/-- What the exporter declares are the counts of the mesh and the properties of a vertex. -/
theorem foldl_next_declarations (hv : h.vertices < 2 ^ 64) (hf : h.faces < 2 ^ 64) :
    h.declarations.foldl Progress.next .start = ⟨h, vertexProperties, some .face⟩ := by
  have hvertex : ∀ p : Progress, p.next ["element", "vertex", toString h.vertices] =
      p.declare (.vertex, h.vertices) := fun p => by
    rw [Progress.next, declared?_element rfl hv]
  have hface : ∀ p : Progress, p.next ["element", "face", toString h.faces] =
      p.declare (.face, h.faces) := fun p => by
    rw [Progress.next, declared?_element rfl hf]
  simp only [Header.declarations, List.foldl_append, List.foldl_cons, List.foldl_nil, hvertex,
    hface]
  rfl

/-- Headers in the layout of the exporter are accepted with the counts that they declare. -/
theorem Exported.accepted {first last : List Char} {lines : List (List Char)}
    (hexported : Exported first lines last h) (hv : h.vertices < 2 ^ 64) (hf : h.faces < 2 ^ 64) :
    Accepted first lines last h := by
  have hlegal := legal_of_mem_declarations hv hf
  have hsaid : Progress.ofLines (lines.map lineWords) = ⟨h, vertexProperties, some .face⟩ := by
    rw [← foldl_next, hexported.lines.foldl_next fun words hwords => (hlegal words hwords).2]
    exact foldl_next_declarations hv hf
  have hheader := congrArg Progress.header hsaid
  obtain ⟨trailing, hlast⟩ := opens_iff.1 hexported.last
  exact {
    first := hexported.first
    legal := hexported.lines.legal hlegal
    last := by
      rw [← hlast]
      rfl
    vertices := (congrArg Header.vertices hheader).symm
    faces := (congrArg Header.faces hheader).symm
    properties := congrArg Progress.properties hsaid }

end

end Ply

end Candela.Mesh
