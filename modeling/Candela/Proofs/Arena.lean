import Mathlib.Algebra.GroupWithZero.Nat
import Mathlib.Data.List.Forall2
import Mathlib.Logic.ExistsUnique
import Candela.Arena

/-!
# Ranges side by side

Ranges tile an interval if each begins where the one before it ends (`Arena.Tiles`). Every position
of the interval is then in one of them only (`Arena.Tiles.existsUnique`), and what they are filled
with, each apart from the others, is put together to what fills the interval
(`Arena.Tiles.filled`).
-/

namespace Candela.Arena

variable {lo mid hi i k : Nat} {r : Range} {rs rs' : List Range}

/-- The positions in a range. -/
instance : Membership Nat Range := ⟨fun r i => r.offset ≤ i ∧ i < r.stop⟩

theorem Range.mem_iff : i ∈ r ↔ r.offset ≤ i ∧ i < r.stop := Iff.rfl

/-- Ranges lie side by side, the first from one position on and the last up to another. -/
def Tiles : (lo : Nat) → List Range → (hi : Nat) → Prop
  | lo, [], hi => lo = hi
  | lo, r :: rest, hi => r.offset = lo ∧ Tiles r.stop rest hi

/-- Whatever has been in an array, cutting it along ranges, filling every slice by itself and putting
the slices together makes it the given one. -/
def Filled {α : Type} (rs : List Range) (blocks : List (List α)) (data : Array α) : Prop :=
  ∀ blank : Arena α, blank.size = data.size → ∃ s, blank.split? rs = some s ∧
    (s.mapSlices fun k _ => blocks.getD k []).join = ⟨data⟩

namespace Tiles

/-- More ranges continue where the others end. -/
theorem append (h : Tiles lo rs mid) (h' : Tiles mid rs' hi) : Tiles lo (rs ++ rs') hi := by
  induction rs generalizing lo with
  | nil =>
    obtain rfl : lo = mid := h
    exact h'
  | cons r rest ih => exact ⟨h.1, ih h.2⟩

/-- One more range. -/
theorem concat (h : Tiles lo rs mid) (length : Nat) :
    Tiles lo (rs ++ [⟨mid, length⟩]) (mid + length) :=
  h.append ⟨rfl, rfl⟩

/-- Ranges side by side do not go back. -/
theorem le (h : Tiles lo rs hi) : lo ≤ hi := by
  induction rs generalizing lo with
  | nil => exact Nat.le_of_eq h
  | cons r rest ih =>
    obtain ⟨rfl, hrest⟩ := h
    exact Nat.le_trans (Nat.le_add_right _ _) (ih hrest)

/-- All ranges lie within the interval. -/
theorem bounds (h : Tiles lo rs hi) (hr : r ∈ rs) : lo ≤ r.offset ∧ r.stop ≤ hi := by
  induction rs generalizing lo with
  | nil => cases hr
  | cons r' rest ih =>
    obtain ⟨rfl, hrest⟩ := h
    rcases List.mem_cons.1 hr with rfl | hr
    · exact ⟨Nat.le_refl _, hrest.le⟩
    · obtain ⟨hlo, hhi⟩ := ih hrest hr
      exact ⟨Nat.le_trans (Nat.le_add_right _ _) hlo, hhi⟩

/-- The lengths of the ranges add up to that of the interval. -/
theorem add_sum_length (h : Tiles lo rs hi) : lo + (rs.map (·.length)).sum = hi := by
  induction rs generalizing lo with
  | nil => exact h
  | cons r rest ih =>
    obtain ⟨rfl, hrest⟩ := h
    rw [List.map_cons, List.sum_cons, ← Nat.add_assoc]
    exact ih hrest

/-- Every position of the interval is in one range only. -/
theorem existsUnique (h : Tiles lo rs hi) (hlo : lo ≤ i) (hhi : i < hi) :
    ∃! k : Nat, ∃ r, rs[k]? = some r ∧ i ∈ r := by
  induction rs generalizing lo with
  | nil =>
    obtain rfl : lo = hi := h
    exact absurd hlo (Nat.not_le.2 hhi)
  | cons r rest ih =>
    obtain ⟨rfl, hrest⟩ := h
    rcases Nat.lt_or_ge i r.stop with hin | hout
    · refine ⟨0, ⟨r, rfl, hlo, hin⟩, ?_⟩
      rintro (_ | k) ⟨r', hr', hmem⟩
      · rfl
      · -- the ranges that follow begin behind the position
        have hbehind := (hrest.bounds (List.mem_of_getElem? hr')).1
        exact absurd (Nat.le_trans hbehind hmem.1) (Nat.not_le.2 hin)
    · obtain ⟨k, ⟨r', hr', hmem⟩, hunique⟩ := ih hrest hout
      refine ⟨k + 1, ⟨r', hr', hmem⟩, ?_⟩
      rintro (_ | k') ⟨r'', hr'', hmem'⟩
      · cases hr''
        exact absurd hmem'.2 (Nat.not_lt.2 hout)
      · rw [hunique k' ⟨r'', hr'', hmem'⟩]

/-- What fills ranges side by side is found in the ranges. -/
theorem getElem?_flatten {α : Type} (h : Tiles lo rs hi) {blocks : List (List α)}
    (hblocks : List.Forall₂ (fun r b => b.length = r.length) rs blocks) {b : List α}
    (hr : rs[k]? = some r) (hb : blocks[k]? = some b) {i place : Nat} (hi : i < r.length)
    (hplace : lo + place = r.offset + i) : blocks.flatten[place]? = b[i]? := by
  induction hblocks generalizing lo k place with
  | nil => cases hr
  | @cons r' b' rs blocks hlength _ ih =>
    obtain ⟨rfl, hrest⟩ := h
    rw [List.flatten_cons]
    cases k with
    | zero =>
      cases hr
      cases hb
      obtain rfl : place = i := by omega
      rw [List.getElem?_append_left (by omega)]
    | succ k =>
      -- the range begins behind the first one
      have hbehind := (hrest.bounds (List.mem_of_getElem? hr)).1
      rw [Range.stop] at hbehind
      rw [List.getElem?_append_right (by omega)]
      refine ih hrest hr hb ?_
      rw [Range.stop]
      omega

/-- What fills ranges side by side is as long as the interval. -/
theorem add_length_flatten {α : Type} (h : Tiles lo rs hi) {blocks : List (List α)}
    (hblocks : List.Forall₂ (fun r b => b.length = r.length) rs blocks) :
    lo + blocks.flatten.length = hi := by
  have hlengths : rs.map (·.length) = blocks.map List.length := by
    refine List.forall₂_eq_eq_eq ▸ ?_
    rw [List.forall₂_map_left_iff, List.forall₂_map_right_iff]
    exact hblocks.imp fun _ _ hr => hr.symm
  rw [List.length_flatten, ← hlengths]
  exact h.add_sum_length

/-- An array is cut along ranges side by side without anything between them or behind them. -/
theorem exists_splitFrom? {α : Type} (h : Tiles lo rs hi) {data : List α}
    (hdata : lo + data.length = hi) : ∃ s, splitFrom? lo data rs = some s ∧ s.rest = [] ∧
      List.Forall₂ (fun r p => p.1 = [] ∧ p.2.length = r.length) rs s.pieces := by
  induction rs generalizing lo data with
  | nil =>
    obtain rfl : lo = hi := h
    obtain rfl : data = [] := List.length_eq_zero_iff.1 (Nat.add_eq_left.1 hdata)
    exact ⟨⟨[], []⟩, rfl, rfl, .nil⟩
  | cons r rest ih =>
    obtain ⟨rfl, hrest⟩ := h
    have hstop : r.stop ≤ r.offset + data.length := hdata ▸ hrest.le
    have hlength : r.length ≤ data.length := by
      rw [Range.stop] at hstop
      omega
    have hafter : r.stop + (data.drop r.length).length = hi := by
      rw [List.length_drop, Range.stop]
      omega
    obtain ⟨s, hs, hempty, hpieces⟩ := ih hrest hafter
    refine ⟨⟨([], data.take r.length) :: s.pieces, s.rest⟩, ?_, hempty, .cons ⟨rfl, ?_⟩ hpieces⟩
    · rw [splitFrom?, if_pos ⟨Nat.le_refl _, hstop⟩, Nat.sub_self]
      simp only [List.splitAt_eq, List.take_zero, List.drop_zero, hs, Option.map_some]
    · exact List.length_take_of_le hlength

/-- Ranges side by side may be filled apart from each other. -/
theorem filled {α : Type} (h : Tiles 0 rs hi) {blocks : List (List α)}
    (hblocks : List.Forall₂ (fun r b => b.length = r.length) rs blocks) :
    Filled rs blocks blocks.flatten.toArray := by
  intro blank hblank
  have hsize : 0 + blocks.flatten.length = hi := h.add_length_flatten hblocks
  rw [Nat.zero_add] at hsize
  rw [List.size_toArray, hsize] at hblank
  have hdata : 0 + blank.data.toList.length = hi := by
    rw [Nat.zero_add, Array.length_toList]
    exact hblank
  obtain ⟨s, hs, hrest, hpieces⟩ := h.exists_splitFrom? hdata
  refine ⟨s, hs, ?_⟩
  have hlength : s.pieces.length = blocks.length :=
    hpieces.length_eq.symm.trans hblocks.length_eq
  have hfilled : (s.pieces.mapIdx fun k p => (p.1, blocks.getD k [])) = blocks.map ([], ·) := by
    refine List.ext_getElem (by rw [List.length_mapIdx, List.length_map, hlength])
      fun k hk hk' => ?_
    rw [List.length_mapIdx] at hk
    rw [List.length_map] at hk'
    have hbefore : s.pieces[k].1 = [] := (hpieces.get (hpieces.length_eq ▸ hk) hk).1
    rw [List.getElem_mapIdx, List.getElem_map, hbefore, List.getD_eq_getElem?_getD,
      List.getElem?_eq_getElem hk', Option.getD_some]
  rw [Split.join, Split.mapSlices, hrest, List.append_nil]
  simp only [hfilled, List.flatMap_map, List.nil_append, List.flatMap_id']

end Tiles

end Candela.Arena
