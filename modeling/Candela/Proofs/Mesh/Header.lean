import Mathlib.Data.List.Induction
import Candela.Mesh.Ply
import Candela.Proofs.Result
import Candela.Proofs.Text.Words

/-!
# Headers that are accepted

What a header says is what its lines say, and of a line only the words count. A line that is read
takes the reader from what it knew to `Progress.next` (`headerLine_eq_some`), so the lines of a
header take it to what they say together (`headerLines_eq_ok`). Seen from the end of the header this
is said without a reader: the last line of an element has its count, and a property belongs to the
last element before it (`foldl_next`). Hence which headers are accepted, and with which counts
(`splitHeader_eq_ok`).
-/

namespace Candela.Mesh.Ply

/-! ## Bytes and lines -/

/-- Some bytes begin with lines of text, each of which ends with a line feed. -/
inductive Begins : List UInt8 → List (List Char) → List UInt8 → Prop
  /-- There are no more lines. -/
  | nil (rest : List UInt8) : Begins rest [] rest
  /-- A line comes first. -/
  | cons {line bytes rest : List UInt8} {text : String} {lines : List (List Char)}
    (hline : 0x0a ∉ line) (htext : Text.decode? line = some text)
    (hbytes : Begins bytes lines rest) :
    Begins (line ++ 0x0a :: bytes) (text.toList :: lines) rest

/-- Bytes begin with some lines if they begin with the first of them and go on with the others. -/
theorem begins_cons_iff {bytes rest : List UInt8} {line : List Char} {lines : List (List Char)} :
    Begins bytes (line :: lines) rest ↔
      ∃ after, Begins bytes [line] after ∧ Begins after lines rest := by
  constructor
  · intro h
    cases h with
    | cons hline htext hbytes => exact ⟨_, .cons hline htext (.nil _), hbytes⟩
  · rintro ⟨after, hfirst, hrest⟩
    cases hfirst with
    | cons hline htext hbytes =>
    cases hbytes
    exact .cons hline htext hrest

/-- Bytes before a line feed are cut at it. -/
theorem splitLine?_append {line : List UInt8} (hline : 0x0a ∉ line) (after : List UInt8) :
    splitLine? (line ++ 0x0a :: after) = some (line, after) := by
  induction line with
  | nil => rfl
  | cons b line ih =>
    obtain ⟨hb, hline⟩ := not_or.1 (mt List.mem_cons.2 hline)
    rw [List.cons_append, splitLine?, if_neg (Ne.symm hb), ih hline]
    rfl

/-- Bytes are cut at their first line feed. -/
theorem eq_of_splitLine? {bytes line after : List UInt8}
    (h : splitLine? bytes = some (line, after)) : bytes = line ++ 0x0a :: after ∧ 0x0a ∉ line := by
  induction bytes generalizing line with
  | nil => cases h
  | cons b bytes ih =>
    unfold splitLine? at h
    split at h
    · next hb =>
      cases h
      exact ⟨congrArg (List.cons · after) hb, List.not_mem_nil⟩
    · next hb =>
      obtain ⟨⟨first, rest⟩, hsplit, heq⟩ := Option.map_eq_some_iff.1 h
      cases heq
      obtain ⟨rfl, hfirst⟩ := ih hsplit
      exact ⟨rfl, List.not_mem_cons_of_ne_of_not_mem (Ne.symm hb) hfirst⟩

/-- The lines that bytes begin with are determined by how many they are. -/
theorem Begins.prefix_of_length_le {bytes rest rest' : List UInt8} {lines lines' : List (List Char)}
    (h : Begins bytes lines rest) (h' : Begins bytes lines' rest')
    (hle : lines.length ≤ lines'.length) : lines <+: lines' := by
  induction h generalizing lines' with
  | nil => exact List.nil_prefix
  | @cons line after _ text lines hline htext _ ih =>
    generalize hbytes : line ++ 0x0a :: after = bytes at h'
    cases h' with
    | nil => exact absurd hle (by simp)
    | @cons line' after' _ text' _ hline' htext' hafter' =>
      have hsplit := splitLine?_append hline after
      rw [hbytes, splitLine?_append hline' after'] at hsplit
      cases hsplit
      cases htext.symm.trans htext'
      exact (List.prefix_cons_inj _).2 (ih hafter' (Nat.le_of_succ_le_succ hle))

/-- The next line is the first one, without the blanks at its ends. -/
theorem nextLine_eq_ok {bytes after : List UInt8} {line : List Char} :
    (∃ h, nextLine bytes = .ok (line, ⟨after, h⟩)) ↔
      ∃ text, Begins bytes [text] after ∧ line = Text.trim text := by
  constructor
  · rintro ⟨h, heq⟩
    unfold nextLine at heq
    split at heq
    · cases heq
    · next first rest hsplit =>
      split at heq
      · cases heq
      · next text htext =>
        cases heq
        obtain ⟨rfl, hfirst⟩ := eq_of_splitLine? hsplit
        exact ⟨_, .cons hfirst htext (.nil _), rfl⟩
  · rintro ⟨text, hbegins, rfl⟩
    cases hbegins with
    | @cons first _ _ s _ hfirst htext hbytes =>
    cases hbytes
    have hsplit := splitLine?_append hfirst after
    refine ⟨length_lt_of_splitLine? hsplit, ?_⟩
    unfold nextLine
    split
    · next hnone => cases hnone.symm.trans hsplit
    · next first' after' hsplit' =>
      cases hsplit'.symm.trans hsplit
      rw [htext]

/-! ## What lines say -/

/-- The words of a line of a header. -/
def lineWords (line : List Char) : List String :=
  (Text.words Text.isBlank line).map String.ofList

/-- An element by its name. -/
def Element.named? (name : String) : Option Element :=
  if name = "vertex" then some .vertex
  else if name = "face" then some .face
  else none

/-- The element that a line declares, and how many there are of it. -/
def declared? : List String → Option (Element × Nat)
  | "element" :: name :: count :: _ => do
    return (← Element.named? name, ← Text.count? (2 ^ 64) count.toList)
  | _ => none

/-- What the words of a line have to be, before the line that ends a header. -/
structure Legal (words : List String) : Prop where
  format : words.head? = some "format" → words[1]? = some "ascii"
  element : words.head? = some "element" → (declared? words).isSome
  notLast : words.head? ≠ some "end_header"

instance : DecidablePred Legal := fun words =>
  decidable_of_iff ((words.head? = some "format" → words[1]? = some "ascii") ∧
      (words.head? = some "element" → (declared? words).isSome) ∧ words.head? ≠ some "end_header")
    ⟨fun ⟨format, element, notLast⟩ => ⟨format, element, notLast⟩,
      fun h => ⟨h.format, h.element, h.notLast⟩⟩

/-- The counts after an element. -/
def Progress.declare (p : Progress) : Element × Nat → Progress
  | (.vertex, n) => { p with header := { p.header with vertices := n }, current := some .vertex }
  | (.face, n) => { p with header := { p.header with faces := n }, current := some .face }

/-- What is known after another line. -/
def Progress.next (p : Progress) (words : List String) : Progress :=
  match declared? words with
  | some e => p.declare e
  | none =>
    if words.head? = some "property" ∧ p.current = some .vertex then
      { p with properties := p.properties + 1 }
    else p

/-- An element line is read as what it declares. -/
theorem element_eq_ok {line : List Char} {arguments : List String} {p q : Progress} :
    element line (arguments.map String.toList) p = .ok q ↔
      ∃ e, declared? ("element" :: arguments) = some e ∧ q = p.declare e := by
  rcases arguments with _ | ⟨name, _ | ⟨count, rest⟩⟩
  · exact ⟨nofun, fun ⟨_, h, _⟩ => nomatch h⟩
  · exact ⟨nofun, fun ⟨_, h, _⟩ => nomatch h⟩
  · have hname : String.ofList (((name :: count :: rest).map String.toList).headD []) = name :=
      String.ofList_toList
    have hcount : ((name :: count :: rest).map String.toList)[1]? = some count.toList := rfl
    rw [element, hname, hcount, Option.bind_some, declared?, Element.named?]
    cases Text.count? (2 ^ 64) count.toList with
    | none => simp
    | some n =>
      by_cases hvertex : name = "vertex"
      · simp [hvertex, Progress.declare, eq_comm]
      · by_cases hface : name = "face"
        · simp [hface, Progress.declare, eq_comm]
        · simp [hvertex, hface]

/-- Properties may stand anywhere, also where they belong to nothing. -/
theorem legal_property (rest : List String) : Legal ("property" :: rest) :=
  ⟨by simp, by simp, by simp⟩

/-- Comments may stand anywhere. -/
theorem legal_comment (rest : List String) : Legal ("comment" :: rest) :=
  ⟨by simp, by simp, by simp⟩

/-- Only element lines declare something. -/
theorem declared?_eq_none {words : List String} (h : words.head? ≠ some "element") :
    declared? words = none := by
  unfold declared?
  split
  · exact absurd rfl h
  · rfl

/-- A line that is neither an element nor a property says nothing. -/
theorem Progress.next_eq_self (p : Progress) {words : List String}
    (helement : words.head? ≠ some "element") (hproperty : words.head? ≠ some "property") :
    p.next words = p := by
  rw [next, declared?_eq_none helement]
  exact if_neg fun h => hproperty h.1

/-- A line that is read and does not end the header is a legal one. -/
theorem headerLine_eq_some {line : List Char} {p q : Progress} :
    headerLine line p = .ok (some q) ↔ Legal (lineWords line) ∧ q = p.next (lineWords line) := by
  unfold headerLine lineWords
  generalize (Text.words Text.isBlank line).map String.ofList = words
  split
  · next arguments =>
    rw [p.next_eq_self (by simp) (by simp), List.head?_eq_getElem?]
    split
    · next hascii =>
      have hlegal : Legal ("format" :: arguments) := ⟨fun _ => hascii, by simp, by simp⟩
      simp [hlegal, eq_comm]
    · next hascii => exact ⟨nofun, fun h => absurd (h.1.format rfl) hascii⟩
  · next arguments =>
    rw [map_eq_ok]
    simp only [element_eq_ok, Option.some_inj]
    constructor
    · rintro ⟨_, ⟨e, he, rfl⟩, rfl⟩
      refine ⟨⟨by simp, fun _ => Option.isSome_of_eq_some he, by simp⟩, ?_⟩
      rw [Progress.next, he]
    · rintro ⟨hlegal, rfl⟩
      obtain ⟨e, he⟩ := Option.isSome_iff_exists.1 (hlegal.element rfl)
      refine ⟨_, ⟨e, he, rfl⟩, ?_⟩
      rw [Progress.next, he]
  · next arguments =>
    have hnone : declared? ("property" :: arguments) = none := declared?_eq_none (by simp)
    rw [Progress.next, hnone]
    simp [legal_property, eq_comm]
  · exact ⟨nofun, fun h => absurd rfl h.1.notLast⟩
  · next hformat helement hproperty hlast =>
    have hne : ∀ first, (∀ rest, words = first :: rest → False) → words.head? ≠ some first :=
      fun first h hfirst => (List.head?_eq_some_iff.1 hfirst).elim h
    have hlegal : Legal words :=
      ⟨fun h => absurd h (hne _ hformat), fun h => absurd h (hne _ helement), hne _ hlast⟩
    rw [p.next_eq_self (hne _ helement) (hne _ hproperty)]
    simp [hlegal, eq_comm]

/-- The line that ends the header. -/
theorem headerLine_eq_none {line : List Char} {p : Progress} :
    headerLine line p = .ok none ↔ (lineWords line).head? = some "end_header" := by
  unfold headerLine lineWords
  generalize (Text.words Text.isBlank line).map String.ofList = words
  split
  · split <;> simp
  · simp [map_eq_ok]
  · simp
  · simp
  · next hformat helement hproperty hlast =>
    simpa [List.head?_eq_some_iff] using hlast

/-- Blanks at the ends of a line are no part of its words. -/
theorem lineWords_trim (line : List Char) : lineWords (Text.trim line) = lineWords line := by
  rw [lineWords, Text.words_trim]
  rfl

/-! ## What a header says -/

/-- The lines of a header are read up to the first one that ends it. -/
theorem headerLines_eq_ok {bytes after : List UInt8} {p q : Progress} :
    headerLines p bytes = .ok (q, after) ↔
      ∃ lines last, Begins bytes (lines ++ [last]) after ∧
        (∀ line ∈ lines, Legal (lineWords line)) ∧
        (lineWords last).head? = some "end_header" ∧
        q = (lines.map lineWords).foldl Progress.next p := by
  -- one way along the reader, the other way along the lines
  constructor
  · intro h
    fun_induction headerLines p bytes with
    | case1 => cases h
    | case2 => cases h
    | case3 p bytes line rest hlt hnext hline =>
      cases h
      obtain ⟨text, hbegins, rfl⟩ := nextLine_eq_ok.1 ⟨hlt, hnext⟩
      rw [headerLine_eq_none, lineWords_trim] at hline
      exact ⟨[], text, hbegins, nofun, hline, rfl⟩
    | case4 p bytes line rest hlt hnext q hline ih =>
      obtain ⟨text, hbegins, rfl⟩ := nextLine_eq_ok.1 ⟨hlt, hnext⟩
      rw [headerLine_eq_some, lineWords_trim] at hline
      obtain ⟨hlegal, rfl⟩ := hline
      obtain ⟨lines, last, hlines, hall, hlast, rfl⟩ := ih h
      exact ⟨text :: lines, last, begins_cons_iff.2 ⟨rest, hbegins, hlines⟩,
        List.forall_mem_cons.2 ⟨hlegal, hall⟩, hlast, rfl⟩
  · rintro ⟨lines, last, hbegins, hall, hlast, rfl⟩
    induction lines generalizing bytes p with
    | nil =>
      obtain ⟨hlt, hnext⟩ := nextLine_eq_ok.2 ⟨last, hbegins, rfl⟩
      have hline : headerLine (Text.trim last) p = .ok none := by
        rwa [headerLine_eq_none, lineWords_trim]
      rw [headerLines, hnext]
      dsimp only
      rw [hline]
      rfl
    | cons line lines ih =>
      obtain ⟨hlegal, hall⟩ := List.forall_mem_cons.1 hall
      obtain ⟨rest, hfirst, hrest⟩ := begins_cons_iff.1 hbegins
      obtain ⟨hlt, hnext⟩ := nextLine_eq_ok.2 ⟨line, hfirst, rfl⟩
      have hline : headerLine (Text.trim line) p = .ok (some (p.next (lineWords line))) := by
        rw [headerLine_eq_some, lineWords_trim]
        exact ⟨hlegal, rfl⟩
      rw [headerLines, hnext]
      dsimp only
      rw [hline]
      exact ih hrest hall

/-- The last element that some lines declare. -/
def lastElement (lines : List (List String)) : Option Element :=
  (lines.filterMap declared?).getLast?.map Prod.fst

/-- The count in the last line that declares an element; without one it is zero. -/
def lastCount (e : Element) (lines : List (List String)) : Nat :=
  (((lines.filterMap declared?).filter (·.1 = e)).getLast?.map Prod.snd).getD 0

/-- Whether a line is one of a property of a vertex: the last element before it is the vertex. -/
def IsVertexProperty (lines : List (List String)) (i : Nat) : Prop :=
  lines[i]?.bind List.head? = some "property" ∧ lastElement (lines.take i) = some .vertex

instance (lines : List (List String)) : DecidablePred (IsVertexProperty lines) :=
  fun _ => inferInstanceAs (Decidable (_ ∧ _))

/-- How many properties of vertices some lines declare. -/
def vertexPropertyCount (lines : List (List String)) : Nat :=
  (List.range lines.length).countP (IsVertexProperty lines ·)

/-- What some lines say together. -/
def Progress.ofLines (lines : List (List String)) : Progress where
  header := ⟨lastCount .vertex lines, lastCount .face lines⟩
  properties := vertexPropertyCount lines
  current := lastElement lines

theorem lastElement_concat (lines : List (List String)) (words : List String) :
    lastElement (lines ++ [words]) = ((declared? words).map Prod.fst).or (lastElement lines) := by
  cases h : declared? words with
  | none => simp [lastElement, h]
  | some e => simp [lastElement, h]

theorem lastCount_concat (e : Element) (lines : List (List String)) (words : List String) :
    lastCount e (lines ++ [words]) = match declared? words with
      | some (d, n) => if d = e then n else lastCount e lines
      | none => lastCount e lines := by
  cases h : declared? words with
  | none => simp [lastCount, h]
  | some d =>
    by_cases he : d.1 = e
    · simp [lastCount, h, he]
    · simp [lastCount, h, he]

theorem vertexPropertyCount_concat (lines : List (List String)) (words : List String) :
    vertexPropertyCount (lines ++ [words]) = vertexPropertyCount lines +
      if words.head? = some "property" ∧ lastElement lines = some .vertex then 1 else 0 := by
  -- whether a line is a property of a vertex only depends on the lines up to it
  have hbefore : (List.range lines.length).countP (IsVertexProperty (lines ++ [words]) ·) =
      vertexPropertyCount lines := by
    refine List.countP_congr fun i hi => ?_
    have hi : i < lines.length := List.mem_range.1 hi
    rw [decide_eq_true_iff, decide_eq_true_iff, IsVertexProperty, IsVertexProperty,
      List.getElem?_append_left hi, List.take_append_of_le_length (Nat.le_of_lt hi)]
  rw [vertexPropertyCount, List.length_append, List.length_singleton, List.range_succ,
    List.countP_append, hbefore, List.countP_singleton]
  simp [IsVertexProperty]

/-- Another line adds to what the lines before it say. -/
theorem Progress.ofLines_concat (lines : List (List String)) (words : List String) :
    ofLines (lines ++ [words]) = (ofLines lines).next words := by
  rw [ofLines, lastCount_concat, lastCount_concat, vertexPropertyCount_concat, lastElement_concat,
    next]
  cases h : declared? words with
  | none =>
    dsimp only
    split
    · next hproperty => simp [ofLines, hproperty]
    · next hproperty => simp [ofLines, hproperty]
  | some d =>
    have helement : words.head? = some "element" := by
      by_contra hne
      cases h.symm.trans (declared?_eq_none hne)
    obtain ⟨e, n⟩ := d
    cases e with
    | vertex => simp [ofLines, declare, helement]
    | face => simp [ofLines, declare, helement]

/-- The reader knows what the lines that it has read say together. -/
theorem foldl_next (lines : List (List String)) :
    lines.foldl Progress.next .start = .ofLines lines := by
  induction lines using List.reverseRecOn with
  | nil => rfl
  | append_singleton lines words ih =>
    rw [List.foldl_append, ih, Progress.ofLines_concat]
    rfl

/-! ## Headers -/

/-- The lines of a header that is accepted, the first and the last of them apart. The names of
properties and the order of elements do not matter. -/
structure Accepted (first : List Char) (lines : List (List Char)) (last : List Char) (h : Header) :
    Prop where
  first : Text.Spaced Text.isBlank ["ply".toList] first
  legal : ∀ line ∈ lines, Legal (lineWords line)
  last : (lineWords last).head? = some "end_header"
  vertices : h.vertices = lastCount .vertex (lines.map lineWords)
  faces : h.faces = lastCount .face (lines.map lineWords)
  properties : vertexPropertyCount (lines.map lineWords) = vertexProperties

/-- The headers that are read, and what they end before. -/
theorem splitHeader_eq_ok {bytes rest : List UInt8} {h : Header} :
    splitHeader bytes = .ok (h, rest) ↔
      ∃ first lines last, Begins bytes (first :: (lines ++ [last])) rest ∧
        Accepted first lines last h := by
  have hply : ∀ line, Text.trim line = "ply".toList ↔
      Text.Spaced Text.isBlank ["ply".toList] line :=
    fun line => Text.trim_eq_iff (by simp) (by simp [Text.isBlank])
  constructor
  · intro heq
    rw [splitHeader] at heq
    split at heq
    · cases heq
    obtain ⟨⟨line, after, hlt⟩, hnext, heq⟩ := bind_eq_ok.1 heq
    obtain ⟨first, hfirst, rfl⟩ := nextLine_eq_ok.1 ⟨hlt, hnext⟩
    dsimp only at heq
    split at heq
    · cases heq
    next hne =>
    obtain ⟨⟨p, body⟩, hlines, heq⟩ := bind_eq_ok.1 heq
    obtain ⟨lines, last, hbegins, hlegal, hlast, rfl⟩ := headerLines_eq_ok.1 hlines
    rw [foldl_next] at heq
    dsimp only at heq
    split at heq
    · cases heq
    next hproperties =>
    cases pure_eq_ok.1 heq
    exact ⟨first, lines, last, begins_cons_iff.2 ⟨after, hfirst, hbegins⟩,
      (hply first).1 (not_not.1 hne), hlegal, hlast, rfl, rfl, not_not.1 hproperties⟩
  · rintro ⟨first, lines, last, hbegins, hacc⟩
    obtain ⟨after, hfirst, hlines⟩ := begins_cons_iff.1 hbegins
    obtain ⟨hlt, hnext⟩ := nextLine_eq_ok.2 ⟨first, hfirst, rfl⟩
    have hne : bytes ≠ [] := by
      rintro rfl
      exact Nat.not_lt_zero _ hlt
    have hread : headerLines .start after = .ok (.ofLines (lines.map lineWords), rest) :=
      headerLines_eq_ok.2 ⟨lines, last, hlines, hacc.legal, hacc.last, (foldl_next _).symm⟩
    have hcounts : (Progress.ofLines (lines.map lineWords)).header = h := by
      rw [Progress.ofLines, ← hacc.vertices, ← hacc.faces]
    have hproperties : (Progress.ofLines (lines.map lineWords)).properties = vertexProperties :=
      hacc.properties
    rw [splitHeader, if_neg hne, hnext]
    refine bind_eq_ok.2 ⟨_, rfl, ?_⟩
    dsimp only
    rw [(hply first).2 hacc.first, if_neg (not_not.2 rfl)]
    refine bind_eq_ok.2 ⟨_, hread, ?_⟩
    dsimp only
    rw [hproperties, if_neg (not_not.2 rfl), hcounts]
    rfl

end Candela.Mesh.Ply
