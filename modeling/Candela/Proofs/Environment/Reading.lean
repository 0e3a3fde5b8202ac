import Mathlib.Algebra.Group.Defs
import Candela.Environment.Reading
import Candela.Proofs.Arena
import Candela.Proofs.Environment.Sampling

/-!
# Importance tables are read inside

The levels of a table lie side by side, and the densities behind them (`Layout.tiles_ranges`). With
words the offsets come out the same as long as they fit (`Layout.levelOffsetWord_eq`), and in a
table with not more than `2 ^ 15` cells a side the cells can be counted in words of 32 bits
(`Layout.cellWord_eq`). So a run with words comes to what sampling comes to, whatever is compared on
the way, and reads nothing that is not where it should be (`Table.reads_inside`): going down a level
doubles the place of a cell in its row and column, as it doubles the cells a side.
-/

namespace Candela.Environment

/-! ## Words -/

theorem inWord_of_lt {n : Nat} (h : n < wordValues) : inWord n = .ok n := if_pos h

theorem inLongWord_of_lt {n : Nat} (h : n < 2 ^ 64) : inLongWord n = .ok n := if_pos h

theorem minus_of_le {a b : Nat} (h : b ≤ a) : minus a b = .ok (a - b) := if_pos h

theorem oneBit_of_lt {width position : Nat} (h : position < width) :
    oneBit width position = .ok (2 ^ position) := by
  rw [oneBit, if_pos h, Nat.one_shiftLeft]

namespace Layout

variable {l : Layout} {level x y : Nat}

/-! ## Offsets -/

/-- Powers of four fit words of 64 bits as long as the exponent is not too large. -/
theorem doubled_eq {levels : Nat} (h : levels ≤ maxExponent) :
    doubled levels = .ok (4 ^ (levels + 1)) := by
  have hlevels : levels ≤ 30 := h
  have hpower : 2 ^ (2 * (levels + 1)) = 4 ^ (levels + 1) := Nat.pow_mul 2 2 _
  rw [doubled, inWord_of_lt (show levels + 1 < 2 ^ 32 by omega)]
  show (inWord (2 * (levels + 1))).bind _ = _
  rw [inWord_of_lt (show 2 * (levels + 1) < 2 ^ 32 by omega)]
  show oneBit 64 (2 * (levels + 1)) = _
  rw [oneBit_of_lt (by omega), hpower]

theorem resolutionWord_eq (h : l.exponent ≤ maxExponent) : l.resolutionWord = .ok l.resolution :=
  oneBit_of_lt (Nat.lt_of_le_of_lt h (by decide))

theorem levelResolutionWord_eq (h : l.exponent ≤ maxExponent) (hlevel : level ≤ l.exponent) :
    l.levelResolutionWord level = .ok (l.levelResolution level) := by
  rw [levelResolutionWord, minus_of_le hlevel]
  exact oneBit_of_lt (Nat.lt_of_le_of_lt (Nat.le_trans (Nat.sub_le _ _) h) (by decide))

theorem levelOffsetWord_eq (h : l.exponent ≤ maxExponent) (hlevel : level ≤ l.exponent) :
    l.levelOffsetWord level = .ok (l.levelOffset level) := by
  have hle : 4 ^ (l.exponent - level + 1) ≤ 4 ^ (l.exponent + 1) :=
    Nat.pow_le_pow_right (by decide) (by omega)
  rw [levelOffsetWord, doubled_eq h, minus_of_le hlevel]
  show (doubled (l.exponent - level)).bind _ = _
  rw [doubled_eq (Nat.le_trans (Nat.sub_le _ _) h)]
  show (minus (4 ^ (l.exponent + 1)) (4 ^ (l.exponent - level + 1))).bind _ = _
  rw [minus_of_le hle]
  rfl

theorem pdfOffsetWord_eq (h : l.exponent ≤ maxExponent) : l.pdfOffsetWord = .ok l.pdfOffset := by
  rw [pdfOffsetWord, doubled_eq h]
  show (minus (4 ^ (l.exponent + 1)) 1).bind _ = _
  rw [minus_of_le (Nat.one_le_pow _ _ (by decide))]
  rfl

/-- A table is not longer than a word of 64 bits can count. -/
theorem length_lt (h : l.exponent ≤ maxExponent) : l.length < 2 ^ 64 := by
  have hpower : 4 ^ l.exponent ≤ 4 ^ maxExponent := Nat.pow_le_pow_right (by decide) h
  have hmax : 4 ^ maxExponent = 2 ^ 60 := by decide
  have hnext : 4 ^ (l.exponent + 1) = 4 * 4 ^ l.exponent := Nat.pow_succ'
  unfold length pdfOffset
  omega

theorem lengthWord_eq (h : l.exponent ≤ maxExponent) : l.lengthWord = .ok l.length := by
  have hlength := l.length_lt h
  have hsquare : l.resolution * l.resolution = 4 ^ l.exponent := two_pow_mul_self _
  unfold length at hlength
  rw [lengthWord, resolutionWord_eq h, pdfOffsetWord_eq h]
  show (inLongWord (l.resolution * l.resolution)).bind _ = _
  rw [hsquare, inLongWord_of_lt (by omega)]
  exact inLongWord_of_lt hlength

/-- What has offsets that fit words, and more. -/
theorem le_maxExponent (h : l.exponent ≤ 15) : l.exponent ≤ maxExponent :=
  Nat.le_trans h (by norm_num [maxExponent])

theorem levelResolution_le (h : l.exponent ≤ 15) (level : Nat) :
    l.levelResolution level ≤ 2 ^ 15 :=
  Nat.pow_le_pow_right (by norm_num) (Nat.le_trans (Nat.sub_le _ _) h)

/-- In a square with not too many cells a side, they can be counted in a word of 32 bits. -/
theorem cellWord_eq {r : Nat} (hr : r ≤ 2 ^ 15) (hx : x < r) (hy : y < r) :
    cellWord r x y = .ok (y * r + x) := by
  have hcell : y * r + x < r * r := mul_add_lt hx hy
  have hsquare : r * r ≤ 2 ^ 15 * 2 ^ 15 := Nat.mul_le_mul hr hr
  have hword : wordValues = 2 ^ 32 := rfl
  rw [cellWord, inWord_of_lt (by omega)]
  exact inWord_of_lt (by omega)

/-! ## Ranges -/

/-- The places of a level. -/
def levelRange (l : Layout) (level : Nat) : Arena.Range :=
  ⟨l.levelOffset level, l.levelResolution level * l.levelResolution level⟩

/-- The places of the densities. -/
def pdfRange (l : Layout) : Arena.Range := ⟨l.pdfOffset, l.resolution * l.resolution⟩

/-- The parts of a table: its levels, and the densities. -/
def ranges (l : Layout) : List Arena.Range :=
  (List.range (l.exponent + 1)).map l.levelRange ++ [l.pdfRange]

/-- The last level has one cell. -/
theorem levelRange_exponent (l : Layout) : l.levelRange l.exponent = ⟨l.totalOffset, 1⟩ := by
  rw [levelRange, levelResolution, Nat.sub_self]
  rfl

/-- The levels below one lie side by side, from the beginning up to it. -/
theorem tiles_levels (l : Layout) (h : level ≤ l.exponent) :
    Arena.Tiles 0 ((List.range level).map l.levelRange) (l.levelOffset level) := by
  induction level with
  | zero => exact l.levelOffset_zero.symm
  | succ level ih =>
    rw [List.range_succ, List.map_append, ← l.levelOffset_add h]
    exact (ih (Nat.le_of_succ_le h)).concat _

/-- The levels and the densities lie side by side and are all of a table. -/
theorem tiles_ranges (l : Layout) : Arena.Tiles 0 l.ranges l.length := by
  have hlevels : Arena.Tiles 0 ((List.range (l.exponent + 1)).map l.levelRange) l.pdfOffset := by
    rw [List.range_succ, List.map_append, ← l.totalOffset_add_one]
    refine (l.tiles_levels (Nat.le_refl _)).append ?_
    rw [List.map_singleton, levelRange_exponent]
    exact ⟨rfl, rfl⟩
  have hlength : l.length = l.pdfOffset + l.resolution * l.resolution := by
    rw [length, ← two_pow_mul_self]
    rfl
  rw [hlength]
  exact hlevels.concat _

/-- Where a table of a layout has what is read: in the range of a level, or in that of the
densities. -/
def Has (l : Layout) : Access → Prop
  | .value level x y place => level ≤ l.exponent ∧ x < l.levelResolution level ∧
      y < l.levelResolution level ∧ place = l.cell level x y ∧ place ∈ l.levelRange level
  | .density x y place => x < l.resolution ∧ y < l.resolution ∧ place = l.pdfCell x y ∧
      place ∈ l.pdfRange

theorem has_value (h : level ≤ l.exponent) (hx : x < l.levelResolution level)
    (hy : y < l.levelResolution level) : l.Has (.value level x y (l.cell level x y)) :=
  ⟨h, hx, hy, rfl, Nat.le_add_right _ _, Nat.add_lt_add_left (mul_add_lt hx hy) _⟩

theorem has_density (hx : x < l.resolution) (hy : y < l.resolution) :
    l.Has (.density x y (l.pdfCell x y)) :=
  ⟨hx, hy, rfl, Nat.le_add_right _ _, Nat.add_lt_add_left (mul_add_lt hx hy) _⟩

end Layout

/-! ## Runs -/

/-- A run comes to a result, whatever has been noted before, and notes what it reads behind it. -/
def Reads {β : Type} (m : Reading β) (b : β) (noted : List Access) : Prop :=
  ∀ log, m.run log = .ok (b, log ++ noted)

namespace Reads

variable {β γ : Type} {m : Reading β} {f : β → Reading γ} {b : β} {c : γ} {r r' : List Access}

theorem pure (b : β) : Reads (Pure.pure b) b [] := by
  intro log
  rw [List.append_nil]
  rfl

/-- What is counted is not read. -/
theorem lift {x : Except Error β} (h : x = .ok b) : Reads (liftM x) b [] := by
  intro log
  rw [h, List.append_nil]
  rfl

theorem bind (h : Reads m b r) (h' : Reads (f b) c r') : Reads (m >>= f) c (r ++ r') := by
  intro log
  rw [StateT.run_bind, h log, ← List.append_assoc]
  exact h' (log ++ r)

theorem lift_bind {x : Except Error β} (h : x = .ok b) (h' : Reads (f b) c r) :
    Reads (liftM x >>= f) c r := (lift h).bind h'

end Reads

section
variable {α : Type} {level x y : Nat}

theorem reads_place {data : Array α} {place : Nat} {w : α} (h : data[place]? = some w)
    (access : Access) : Reads (readPlace data place access) w [access] := by
  intro log
  rw [readPlace, h]
  rfl

namespace Table

variable [OfNat α 0] {t : Table α}

/-- The values of a table are read in its levels. -/
theorem reads_value (h : t.layout.exponent ≤ 15) (hlevel : level ≤ t.layout.exponent)
    (hx : x < t.layout.levelResolution level) (hy : y < t.layout.levelResolution level) :
    Reads (t.readValue level x y) (t.value level x y)
      [.value level x y (t.layout.cell level x y)] := by
  have hexponent := Layout.le_maxExponent h
  have hplace := t.layout.cell_lt hlevel hx hy
  have hlength := t.layout.length_lt hexponent
  have hend : t.layout.pdfOffset ≤ t.layout.length := Nat.le_add_right _ _
  refine .lift_bind (Layout.levelResolutionWord_eq hexponent hlevel) ?_
  refine .lift_bind (Layout.levelOffsetWord_eq hexponent hlevel) ?_
  refine .lift_bind (Layout.cellWord_eq (Layout.levelResolution_le h level) hx hy) ?_
  refine .lift_bind (inLongWord_of_lt (hplace.trans (by omega))) ?_
  exact reads_place (t.getElem?_cell hlevel hx hy) _

/-- The densities of a table are read behind its levels. -/
theorem reads_density (h : t.layout.exponent ≤ 15) (hx : x < t.layout.resolution)
    (hy : y < t.layout.resolution) :
    Reads (t.readDensity x y) (t.cellPdf x y) [.density x y (t.layout.pdfCell x y)] := by
  have hexponent := Layout.le_maxExponent h
  obtain ⟨hplace, hcell⟩ := t.cellPdf_eq hx hy
  have hlength := t.layout.length_lt hexponent
  have hsize : t.data.size = t.layout.length := t.size_data
  refine .lift_bind (Layout.resolutionWord_eq hexponent) ?_
  refine .lift_bind (Layout.pdfOffsetWord_eq hexponent) ?_
  refine .lift_bind (Layout.cellWord_eq (Layout.levelResolution_le h 0) hx hy) ?_
  refine .lift_bind (inLongWord_of_lt (show t.layout.pdfCell x y < 2 ^ 64 by omega)) ?_
  rw [hcell]
  exact reads_place (Array.getElem?_eq_getElem hplace) _

/-- The places of the four cells at a level that a cell of the next level consists of. -/
def blockReads (l : Layout) (level x y : Nat) : List Access :=
  [(2 * x, 2 * y), (2 * x + 1, 2 * y), (2 * x, 2 * y + 1), (2 * x + 1, 2 * y + 1)].map
    fun (x, y) => .value level x y (l.cell level x y)

theorem reads_block (h : t.layout.exponent ≤ 15) (hlevel : level < t.layout.exponent)
    (hx : x < t.layout.levelResolution (level + 1))
    (hy : y < t.layout.levelResolution (level + 1)) :
    Reads (t.readBlock level x y) (t.block level x y) (blockReads t.layout level x y) := by
  have hresolution := t.layout.levelResolution_eq hlevel
  have hsmall := Layout.levelResolution_le h level
  have hword : wordValues = 2 ^ 32 := rfl
  have hcell {m n : Nat} (hm : m < t.layout.levelResolution level)
      (hn : n < t.layout.levelResolution level) := reads_value h hlevel.le hm hn
  refine .lift_bind (inWord_of_lt (show 2 * x < wordValues by omega)) ?_
  refine .lift_bind (inWord_of_lt (show 2 * y < wordValues by omega)) ?_
  refine .lift_bind (inWord_of_lt (show 2 * x + 1 < wordValues by omega)) ?_
  refine .lift_bind (inWord_of_lt (show 2 * y + 1 < wordValues by omega)) ?_
  exact (hcell (by omega) (by omega)).bind <| (hcell (by omega) (by omega)).bind <|
    (hcell (by omega) (by omega)).bind <| (hcell (by omega) (by omega)).bind (.pure _)

/-- A level has what is read of it. -/
theorem has_blockReads {l : Layout} (hlevel : level < l.exponent)
    (hx : x < l.levelResolution (level + 1)) (hy : y < l.levelResolution (level + 1)) :
    ∀ a ∈ blockReads l level x y, l.Has a := by
  have hresolution := l.levelResolution_eq hlevel
  have hcell {m n : Nat} (hm : m < l.levelResolution level) (hn : n < l.levelResolution level) :=
    Layout.has_value hlevel.le hm hn
  intro a ha
  simp only [blockReads, List.map_cons, List.map_nil, List.mem_cons, List.not_mem_nil,
    or_false] at ha
  rcases ha with rfl | rfl | rfl | rfl <;> exact hcell (by omega) (by omega)

section
variable [Add α] [Sub α] [Div α] [LT α] [DecidableLT α] [OfNat α 1] [Scalar α] {c : Cursor α}

/-- A step: however the comparisons come out, a run goes down to the cell that sampling goes down
to. -/
theorem reads_descend (h : t.layout.exponent ≤ 15) (hlevel : level < t.layout.exponent)
    (hx : c.x < t.layout.levelResolution (level + 1))
    (hy : c.y < t.layout.levelResolution (level + 1)) :
    Reads (t.readDescend level c) (t.descend level c) (blockReads t.layout level c.x c.y) ∧
      (t.descend level c).x < t.layout.levelResolution level ∧
      (t.descend level c).y < t.layout.levelResolution level := by
  have hresolution := t.layout.levelResolution_eq hlevel
  have hsmall := Layout.levelResolution_le h level
  have hword : wordValues = 2 ^ 32 := rfl
  obtain ⟨hx', hy'⟩ := t.descend_cell level c
  have hright := (t.turn level c).1.toNat_lt
  have hbottom := (t.turn level c).2.toNat_lt
  refine ⟨?_, by omega, by omega⟩
  rw [← List.append_nil (blockReads _ _ _ _)]
  refine (reads_block h hlevel hx hy).bind ?_
  refine .lift_bind (inWord_of_lt (show (t.descend level c).x < wordValues by omega)) ?_
  refine .lift_bind (inWord_of_lt (show (t.descend level c).y < wordValues by omega)) ?_
  exact .pure _

/-- A run from a level down to the cells reads four cells of every level on the way. -/
theorem reads_descendFrom (h : t.layout.exponent ≤ 15) (hlevel : level ≤ t.layout.exponent)
    (hx : c.x < t.layout.levelResolution level) (hy : c.y < t.layout.levelResolution level) :
    ∃ r, Reads (t.readDescendFrom level c) (t.descendFrom level c) r ∧ r.length = 4 * level ∧
      ∀ a ∈ r, t.layout.Has a := by
  induction level generalizing c with
  | zero => exact ⟨[], .pure c, rfl, fun a ha => absurd ha List.not_mem_nil⟩
  | succ level ih =>
    obtain ⟨hstep, hx', hy'⟩ := reads_descend h hlevel hx hy
    obtain ⟨r, hrest, hlength, hall⟩ := ih (Nat.le_of_succ_le hlevel) hx' hy'
    refine ⟨_, hstep.bind hrest, ?_, fun a ha => ?_⟩
    · rw [List.length_append, hlength, Nat.mul_succ, Nat.add_comm]
      rfl
    · rcases List.mem_append.1 ha with ha | ha
      · exact has_blockReads hlevel hx hy a ha
      · exact hall a ha

end

end Table

end

/-! ## Main result -/

namespace Table

variable {t : Table Float32}

/-- Sampling reads four cells of every level and the density of the cell where it ends. -/
theorem reads_sample (h : t.layout.exponent ≤ 15) (u v : Float32) :
    ∃ r x y, Reads (t.readSample u v) (t.sample u v) (r ++ [.density x y (t.layout.pdfCell x y)]) ∧
      r.length = 4 * t.layout.exponent ∧ (∀ a ∈ r, t.layout.Has a) ∧
      x < t.layout.resolution ∧ y < t.layout.resolution := by
  have hexponent := Layout.le_maxExponent h
  obtain ⟨r, hpath, hlength, hall⟩ := reads_descendFrom (c := ⟨0, 0, u, v⟩) h (Nat.le_refl _)
    (Nat.two_pow_pos _) (Nat.two_pow_pos _)
  obtain ⟨hx, hy⟩ := t.path_lt u v
  refine ⟨r, _, _, hpath.bind (.lift_bind (Layout.resolutionWord_eq hexponent) ?_), hlength, hall,
    hx, hy⟩
  exact (reads_density h hx hy).bind (.pure _)

/-- The density of a direction is read for one cell. -/
theorem reads_pdf (h : t.layout.exponent ≤ 15) (d : Vec3 Float32) :
    ∃ x y, Reads (t.readPdf d) (t.pdf d) [.density x y (t.layout.pdfCell x y)] ∧
      x < t.layout.resolution ∧ y < t.layout.resolution := by
  have hexponent := Layout.le_maxExponent h
  have hpos : 0 < t.layout.resolution := Nat.two_pow_pos _
  have hcell (w : Float32) : cellOf t.layout.resolution w < t.layout.resolution :=
    (Nat.min_le_right _ _).trans_lt (Nat.sub_lt hpos Nat.one_pos)
  refine ⟨_, _, .lift_bind (Layout.resolutionWord_eq hexponent) ?_, hcell (toSquare d).1,
    hcell (toSquare d).2⟩
  refine .lift_bind (minus_of_le hpos) ?_
  exact reads_density h (hcell _) (hcell _)

/-- A table is a table of its layout, however it has been made. -/
theorem layout_of_made {l : Layout} (h : (∃ base, ofImportance l base = .ok t) ∨
    ∃ data, ofData? l data = some t) : t.layout = l := by
  rcases h with ⟨base, hbase⟩ | ⟨data, hdata⟩
  · unfold ofImportance at hbase
    split at hbase
    · cases hbase
      rfl
    · cases hbase
  · unfold ofData? at hdata
    split at hdata
    · cases hdata
      rfl
    · cases hdata

end Table

/-- How a layout is laid out: its parts lie side by side, the last level is one cell, and with words
all of this comes out the same. -/
structure Layout.Addressed (l : Layout) : Prop where
  tiles : Arena.Tiles 0 l.ranges l.length
  total : l.levelRange l.exponent = ⟨l.totalOffset, 1⟩
  resolution : l.resolutionWord = .ok l.resolution
  levelResolution : ∀ level ≤ l.exponent, l.levelResolutionWord level = .ok (l.levelResolution level)
  levelOffset : ∀ level ≤ l.exponent, l.levelOffsetWord level = .ok (l.levelOffset level)
  totalOffset : l.totalOffsetWord = .ok l.totalOffset
  pdfOffset : l.pdfOffsetWord = .ok l.pdfOffset
  length : l.lengthWord = .ok l.length

/-- For every exponent with which the offsets fit words of 64 bits, the parts of a table tile it. A
table with an exponent of at most 15, whatever is in it, is then read inside: sampling comes to its
end for all numbers, and the density of a direction for all directions; no count is beyond its word,
every value is read in the range of its level and every density in that of the densities. -/
theorem Table.reads_inside :
    (∀ k, 2 * k + 2 < 64 → Layout.ofExponent k = .ok ⟨k⟩ ∧ (⟨k⟩ : Layout).Addressed) ∧
    ∀ (l : Layout) (t : Table Float32), l.exponent ≤ 15 →
      ((∃ base, ofImportance l base = .ok t) ∨ ∃ data, ofData? l data = some t) →
      (∀ u v, ∃ reads x y place,
        (t.readSample u v).run [] = .ok (t.sample u v, reads ++ [.density x y place]) ∧
          reads.length = 4 * l.exponent ∧ ∀ a ∈ reads ++ [.density x y place], l.Has a) ∧
      ∀ d, ∃ x y place, (t.readPdf d).run [] = .ok (t.pdf d, [.density x y place]) ∧
        l.Has (.density x y place) := by
  constructor
  · intro k hk
    have hexponent : (⟨k⟩ : Layout).exponent ≤ Layout.maxExponent :=
      show k ≤ 30 by omega
    exact ⟨if_pos hexponent, {
      tiles := Layout.tiles_ranges _
      total := Layout.levelRange_exponent _
      resolution := Layout.resolutionWord_eq hexponent
      levelResolution := fun _ => Layout.levelResolutionWord_eq hexponent
      levelOffset := fun _ => Layout.levelOffsetWord_eq hexponent
      totalOffset := Layout.levelOffsetWord_eq hexponent (Nat.le_refl _)
      pdfOffset := Layout.pdfOffsetWord_eq hexponent
      length := Layout.lengthWord_eq hexponent }⟩
  · intro l t h hmade
    obtain rfl := Table.layout_of_made hmade
    refine ⟨fun u v => ?_, fun d => ?_⟩
    · obtain ⟨r, x, y, hreads, hlength, hall, hx, hy⟩ := t.reads_sample h u v
      refine ⟨r, x, y, _, hreads [], hlength, fun a ha => ?_⟩
      rcases List.mem_append.1 ha with ha | ha
      · exact hall a ha
      · rw [List.mem_singleton.1 ha]
        exact Layout.has_density hx hy
    · obtain ⟨x, y, hreads, hx, hy⟩ := t.reads_pdf h d
      exact ⟨x, y, _, hreads [], Layout.has_density hx hy⟩

/-- A table of four cells, read with something that is no number and something that is infinite. -/
theorem Table.reads_inside_corner : (2 * 1 + 2 < 64 ∧ (⟨1⟩ : Layout).Addressed) ∧
    ∃ t, ofImportance ⟨1⟩ #[0, 1, 0, 2] = .ok t ∧
      (∃ reads x y place, (t.readSample Single.nan Single.infinity).run [] =
        .ok (t.sample Single.nan Single.infinity, reads ++ [.density x y place]) ∧
          reads.length = 4 ∧ ∀ a ∈ reads ++ [.density x y place], (⟨1⟩ : Layout).Has a) ∧
      ∃ x y place, (t.readPdf ⟨Single.nan, -Single.infinity, 2⟩).run [] =
        .ok (t.pdf ⟨Single.nan, -Single.infinity, 2⟩, [.density x y place]) ∧
          (⟨1⟩ : Layout).Has (.density x y place) := by
  obtain ⟨hlayout, hreads⟩ := Table.reads_inside
  have hmade : ofImportance ⟨1⟩ (#[0, 1, 0, 2] : Array Float32) = .ok (ofCells ⟨1⟩ ⟨_, rfl⟩) :=
    dif_pos rfl
  obtain ⟨hsample, hpdf⟩ := hreads ⟨1⟩ _ (by norm_num) (.inl ⟨_, hmade⟩)
  exact ⟨⟨by norm_num, (hlayout 1 (by norm_num)).2⟩, _, hmade, hsample _ _, hpdf _⟩

end Candela.Environment
