import Candela.Mesh.Basic
import Candela.Power
import Candela.Text.Numeral
import Candela.Text.Words

/-!
# Mesh files

The exporter writes meshes as text: a header line by line, then the numbers of the vertices and of
the triangles, separated by any blanks.

```text
ply
format ascii 1.0
comment ...
element vertex N
property float x | y | z | nx | ny | nz | s | t
element face M
property list uchar uint vertex_indices
property uchar material_index
end_header
x y z nx ny nz s t
3 i j k material
```

`Ply.header` reads the lines up to `end_header`; `Ply.load` reads all. Of a header, the element
lines and the number of vertex properties are looked at, so a file whose properties have other names
is read as if they were these.
-/

namespace Candela.Mesh.Ply

/-- How many numbers a vertex has. -/
def vertexProperties : Nat := 8

/-- The element that the property lines belong to. -/
inductive Element where
  | vertex
  | face
  deriving DecidableEq

/-- What has been read of a header. -/
structure Progress where
  /-- The counts so far. -/
  header : Header
  /-- How many vertex properties there are so far. -/
  properties : Nat
  /-- The last element. -/
  current : Option Element

/-- Nothing has been read. -/
def Progress.start : Progress := ⟨⟨0, 0⟩, 0, none⟩

/-- The bytes before the first line feed and those after it. -/
def splitLine? : List UInt8 → Option (List UInt8 × List UInt8)
  | [] => none
  | b :: rest =>
    if b = 0x0a then some ([], rest)
    else (splitLine? rest).map fun (line, after) => (b :: line, after)

/-- The rest after a line feed is shorter. -/
theorem length_lt_of_splitLine? {bytes line after : List UInt8}
    (h : splitLine? bytes = some (line, after)) : after.length < bytes.length := by
  induction bytes generalizing line with
  | nil => simp [splitLine?] at h
  | cons b rest ih =>
    unfold splitLine? at h
    split at h
    · simp only [Option.some.injEq, Prod.mk.injEq] at h
      simp [h.2]
    · obtain ⟨⟨l, a⟩, hl, he⟩ := Option.map_eq_some_iff.1 h
      simp only [Prod.mk.injEq] at he
      have := ih (he.2 ▸ hl)
      simp only [List.length_cons]
      omega

/-- The next line without blanks at its ends, and the bytes after it. -/
def nextLine (bytes : List UInt8) :
    Except Error ((List Char) × { after : List UInt8 // after.length < bytes.length }) :=
  match h : splitLine? bytes with
  | none => .error (.mesh "missing end_header")
  | some (line, after) =>
    match Text.decode? line with
    | none => .error (.mesh "header is not UTF-8")
    | some s => .ok (Text.trim s.toList, ⟨after, length_lt_of_splitLine? h⟩)

/-- An element line: the words after `element`. The count is looked at before the name. -/
def element (line : List Char) (arguments : List (List Char)) (p : Progress) :
    Except Error Progress :=
  let name := String.ofList (arguments.headD [])
  match arguments[1]?.bind (Text.count? (2 ^ 64)) with
  | none => .error (.mesh ("bad element line '" ++ String.ofList line ++ "'"))
  | some count =>
    if name = "vertex" then
      .ok { p with header := { p.header with vertices := count }, current := some .vertex }
    else if name = "face" then
      .ok { p with header := { p.header with faces := count }, current := some .face }
    else .error (.mesh ("unexpected element '" ++ name ++ "'"))

/-- A line of the header after the first one; nothing if it is the last one. Lines that begin
otherwise mean nothing. -/
def headerLine (line : List Char) (p : Progress) : Except Error (Option Progress) :=
  match (Text.words Text.isBlank line).map String.ofList with
  | "format" :: arguments =>
    if arguments.head? = some "ascii" then .ok (some p)
    else .error (.mesh "only ASCII PLY is supported")
  | "element" :: arguments => (element line (arguments.map String.toList) p).map some
  | "property" :: _ =>
    .ok (some (if p.current = some .vertex then { p with properties := p.properties + 1 } else p))
  | "end_header" :: _ => .ok none
  | _ => .ok (some p)

/-- The lines of the header after the first one. -/
def headerLines (p : Progress) (bytes : List UInt8) : Except Error (Progress × List UInt8) :=
  match nextLine bytes with
  | .error e => .error e
  | .ok (line, ⟨after, _⟩) =>
    match headerLine line p with
    | .error e => .error e
    | .ok none => .ok (p, after)
    | .ok (some q) => headerLines q after
  termination_by bytes.length

/-- The counts of a file and the bytes after its header. -/
def splitHeader (bytes : List UInt8) : Except Error (Header × List UInt8) :=
  if bytes = [] then .error (.mesh "empty file")
  else do
    let (line, ⟨after, _⟩) ← nextLine bytes
    if line ≠ "ply".toList then throw (.mesh "not a PLY file")
    let (p, body) ← headerLines .start after
    if p.properties ≠ vertexProperties then
      throw (.mesh ("expected " ++ toString vertexProperties ++ " vertex properties, found " ++
        toString p.properties))
    return (p.header, body)

/-- The counts of a file. -/
def header (bytes : List UInt8) : Except Error Header := (splitHeader bytes).map (·.1)

/-! ## The body -/

/-- Reads something off the front of a list of words. -/
abbrev Read (α : Type) := List (List Char) → Except Error (α × List (List Char))

/-- The next word, which stands for a value of some kind. -/
def value {α : Type} (what : String) (parse : List Char → Option α) : Read α
  | [] => .error (.mesh ("unexpected end of file reading " ++ what))
  | word :: rest =>
    match parse word with
    | some a => .ok (a, rest)
    | none => .error (.mesh ("invalid " ++ what ++ " '" ++ String.ofList word ++ "'"))

/-- A coordinate. -/
def number : Read Float32 := value "vertex value" Text.single?

/-- An index of a vertex. -/
def index : Read UInt32 := value "vertex index" Text.word?

/-- A vertex: place, normal and texture coordinates. -/
def vertex : Read Vertex := fun words => do
  let (x, words) ← number words
  let (y, words) ← number words
  let (z, words) ← number words
  let (nx, words) ← number words
  let (ny, words) ← number words
  let (nz, words) ← number words
  let (u, words) ← number words
  let (v, words) ← number words
  return (⟨⟨x, y, z⟩, ⟨nx, ny, nz⟩, u, v⟩, words)

/-- A triangle of a mesh with some number of vertices, which is known as a 32-bit word. -/
def face (vertexCount : UInt32) : Read Face := fun words => do
  let (size, words) ← value "face size" Text.word? words
  if size ≠ 3 then
    throw (.mesh ("only triangles are supported, found a " ++ toString size.toNat ++ "-gon"))
  let (a, words) ← index words
  let (b, words) ← index words
  let (c, words) ← index words
  if let some bad := [a, b, c].find? (vertexCount ≤ ·) then
    throw (.mesh ("vertex index " ++ toString bad.toNat ++ " out of range"))
  let (material, words) ← value "material index" Text.word? words
  return (⟨a, b, c, material⟩, words)

/-- The given number of values, after those read so far. -/
def many {α : Type} (read : Read α) {n : Nat} :
    (k : Nat) → (done : Array α) → done.size + k = n → Read (Vector α n)
  | 0, done, h, words => .ok (⟨done, by omega⟩, words)
  | k + 1, done, h, words =>
    match read words with
    | .error e => .error e
    | .ok (a, rest) => many read k (done.push a) (by rw [Array.size_push]; omega) rest

/-- The vertices and triangles of a body. What follows them is not looked at. -/
def body (h : Header) (words : List (List Char)) : Except Error (Mesh h) := do
  let (vertices, words) ← many vertex h.vertices #[] (by simp) words
  let (faces, _) ← many (face h.vertices.toUInt32) h.faces #[] (by simp) words
  return ⟨vertices, faces⟩

/-- The mesh of a file, which must have the counts that were read before. Those counts are looked at
first, since room is made for them. -/
def load (bytes : List UInt8) (expected : Header) : Except Error (Mesh expected) := do
  if !expected.canStore then throw .overflow
  let (found, rest) ← splitHeader bytes
  if found ≠ expected then throw changed
  match Text.decode? rest with
  | none => throw (.mesh "body is not UTF-8")
  | some s => body expected (Text.words Text.isAsciiBlank s.toList)

end Candela.Mesh.Ply

/-- Meshes out of files; `none` is a file that cannot be read. -/
def Candela.Mesh.Source.ofFiles (read : String → Option (List UInt8)) : Candela.Mesh.Source where
  header path := match read path with
    | some bytes => Ply.header bytes
    | none => .error .io
  load path h := match read path with
    | some bytes => Ply.load bytes h
    | none => .error .io
