import Mathlib.Data.List.Forall2
import Candela.Arena
import Candela.Proofs.Arena

/-!
# Arenas in pieces

An arena can be cut along ranges if they are sorted, lie apart and lie within it, and along no other
ranges (`isSome_split?_iff`). What the cutting carries along is where the pieces lie (`Along`): what
is left of the array begins where the last range has ended, so every slice lies where its range
says.

Slices are edited in some order, and slices that are edited at the same time are edited in one of
many orders. An edit of one slice does not touch the others, so a run of edits comes to every slice
having gone through its own edits (`Split.edited_eq_mapSlices`), whatever the order among different
slices has been. `exists_split?_edited` puts this together: after any run of edits, reading a range
gives its slice as it was left, and everything outside of the ranges is as it was.
-/

namespace Candela.Arena

variable {α : Type} {a b : Arena α} {r : Range} {rs rs' : List Range} {position k i : Nat}
  {data rest : List α} {pieces pieces' : List (List α × List α)} {s : Split α}

/-! ## Ranges that can be cut along -/

/-- Each of two ranges begins before the other one has ended. -/
def Range.Overlaps (r r' : Range) : Prop := r.offset < r'.stop ∧ r'.offset < r.stop

instance (r r' : Range) : Decidable (r.Overlaps r') := inferInstanceAs (Decidable (_ ∧ _))

/-- Ranges are sorted by their offsets; of those with the same offset, the empty ones come first. -/
def Sorted (rs : List Range) : Prop :=
  rs.Pairwise fun r r' => r.offset ≤ r'.offset ∧ (r.offset = r'.offset → r.length ≤ r'.length)

/-- No two ranges overlap. -/
def Apart (rs : List Range) : Prop := rs.Pairwise fun r r' => ¬ r.Overlaps r'

instance : DecidablePred Sorted := fun _ => inferInstanceAs (Decidable (List.Pairwise _ _))

instance : DecidablePred Apart := fun _ => inferInstanceAs (Decidable (List.Pairwise _ _))

/-- Sorted ranges that lie apart are those of which none begins before the ones ahead of it have
ended. -/
theorem sorted_and_apart_iff :
    Sorted rs ∧ Apart rs ↔ rs.Pairwise fun r r' => r.stop ≤ r'.offset := by
  rw [Sorted, Apart, ← List.pairwise_and_iff]
  refine List.Pairwise.iff fun r r' => ?_
  simp only [Range.Overlaps, Range.stop]
  omega

/-- What is left of an array can be cut along ranges that follow each other and lie in what is
left, and along no others. -/
theorem isSome_splitFrom?_iff :
    (splitFrom? position data rs).isSome ↔ (rs.Pairwise fun r r' => r.stop ≤ r'.offset) ∧
      ∀ r ∈ rs, position ≤ r.offset ∧ r.stop ≤ position + data.length := by
  induction rs generalizing position data with
  | nil => simp [splitFrom?]
  | cons r rest ih =>
    rw [splitFrom?, List.pairwise_cons, List.forall_mem_cons]
    split
    · next hr =>
      simp only [List.splitAt_eq, Option.isSome_map, ih, List.length_drop]
      have hleft : r.stop + (data.length - (r.offset - position) - r.length) =
          position + data.length := by
        rw [Range.stop] at hr ⊢
        omega
      rw [hleft]
      constructor
      · rintro ⟨hpairwise, hrest⟩
        refine ⟨⟨fun r' hr' => (hrest r' hr').1, hpairwise⟩, hr, fun r' hr' => ?_⟩
        have hbegins : r.offset ≤ r'.offset := Nat.le_trans (Nat.le_add_right _ _) (hrest r' hr').1
        exact ⟨Nat.le_trans hr.1 hbegins, (hrest r' hr').2⟩
      · rintro ⟨⟨hfirst, hpairwise⟩, -, hrest⟩
        exact ⟨hpairwise, fun r' hr' => ⟨hfirst r' hr', (hrest r' hr').2⟩⟩
    · next hr => simp [hr]

/-- An arena can be cut along ranges that are sorted, lie apart and lie within it, and along no
others. -/
theorem isSome_split?_iff :
    (a.split? rs).isSome ↔ Sorted rs ∧ Apart rs ∧ ∀ r ∈ rs, a.holds r := by
  rw [split?, isSome_splitFrom?_iff, ← sorted_and_apart_iff, and_assoc]
  refine and_congr_right' (and_congr_right' (forall₂_congr fun r _ => ?_))
  rw [holds, decide_eq_true_iff, size, Array.length_toList, Nat.zero_add,
    and_iff_right (Nat.zero_le _)]

/-! ## Where the pieces lie -/

/-- Pieces lie along ranges, the first of them from one position on: what comes before a slice
reaches from the end of the last range to the beginning of the next one, which the slice fills. -/
inductive Along : (position : Nat) → List Range → List (List α × List α) → Prop where
  | nil {position : Nat} : Along position [] []
  | cons {position : Nat} {r : Range} {rs : List Range} {before slice : List α}
      {pieces : List (List α × List α)} (before_length : position + before.length = r.offset)
      (slice_length : slice.length = r.length) (rest : Along r.stop rs pieces) :
      Along position (r :: rs) ((before, slice) :: pieces)

/-- Cutting loses nothing, and its pieces lie along the ranges. -/
theorem along_of_splitFrom? (h : splitFrom? position data rs = some s) :
    Along position rs s.pieces ∧ s.pieces.flatMap (fun p => p.1 ++ p.2) ++ s.rest = data := by
  induction rs generalizing position data s with
  | nil =>
    cases h
    exact ⟨.nil, rfl⟩
  | cons r rest ih =>
    rw [splitFrom?] at h
    split at h
    · next hr =>
      rw [Range.stop] at hr
      simp only [List.splitAt_eq, Option.map_eq_some_iff] at h
      obtain ⟨s, hs, rfl⟩ := h
      obtain ⟨halong, hdata⟩ := ih hs
      refine ⟨.cons ?_ ?_ halong, ?_⟩
      · rw [List.length_take]
        omega
      · rw [List.length_take, List.length_drop]
        omega
      · simp only [List.flatMap_cons, List.append_assoc, hdata, List.take_append_drop]
    · cases h

/-- There are as many pieces as ranges. -/
theorem Along.length_eq (h : Along position rs pieces) : pieces.length = rs.length := by
  induction h with
  | nil => rfl
  | cons _ _ _ ih => rw [List.length_cons, List.length_cons, ih]

/-- A slice is as long as its range and lies where the range says. -/
theorem Along.exists_append (h : Along position rs pieces) (hr : rs[k]? = some r) :
    ∃ before slice, (pieces.map (·.2))[k]? = some slice ∧ slice.length = r.length ∧
      position + before.length = r.offset ∧
      ∃ after, pieces.flatMap (fun p => p.1 ++ p.2) = before ++ slice ++ after := by
  induction h generalizing k with
  | nil => cases hr
  | @cons position r' rs before slice pieces hbefore hslice _ ih =>
    cases k with
    | zero =>
      cases hr
      exact ⟨before, slice, rfl, hslice, hbefore, _, List.flatMap_cons⟩
    | succ k =>
      obtain ⟨before', slice', hget, hlength, hoffset, after, happend⟩ := ih hr
      refine ⟨before ++ slice ++ before', slice', hget, hlength, ?_, after, ?_⟩
      · rw [Range.stop] at hoffset
        simp only [List.length_append]
        omega
      · rw [List.flatMap_cons, happend]
        simp only [List.append_assoc]

/-! ## Other contents -/

/-- Pieces differ in what is in their slices only. -/
def Refilled (pieces pieces' : List (List α × List α)) : Prop :=
  List.Forall₂ (fun p p' => p'.1 = p.1 ∧ p'.2.length = p.2.length) pieces pieces'

/-- Pieces with other contents lie along the same ranges. -/
theorem Along.refilled (h : Along position rs pieces) (h' : Refilled pieces pieces') :
    Along position rs pieces' := by
  induction h generalizing pieces' with
  | nil =>
    cases h'
    exact .nil
  | cons hbefore hslice _ ih =>
    obtain _ | ⟨⟨hfirst, hlength⟩, hrest⟩ := h'
    exact .cons (hfirst ▸ hbefore) (hlength.trans hslice) (ih hrest)

/-- Other contents of the slices do not make the whole longer. -/
theorem Refilled.length_eq (h : Refilled pieces pieces') :
    (pieces'.flatMap fun p => p.1 ++ p.2).length = (pieces.flatMap fun p => p.1 ++ p.2).length := by
  induction h with
  | nil => rfl
  | cons hp _ ih =>
    simp only [List.flatMap_cons, List.length_append, ih, hp.1, hp.2]

/-- Outside of the ranges, other contents of the slices make no difference. -/
theorem Along.getElem?_refilled (h : Along position rs pieces) (h' : Refilled pieces pieces')
    (hout : ∀ r ∈ rs, position + i ∉ r) :
    ((pieces'.flatMap fun p => p.1 ++ p.2) ++ rest)[i]? =
      ((pieces.flatMap fun p => p.1 ++ p.2) ++ rest)[i]? := by
  induction h generalizing pieces' i with
  | nil =>
    cases h'
    rfl
  | @cons position r rs before slice pieces hbefore hslice _ ih =>
    obtain _ | @⟨_, p', _, pieces', ⟨hfirst, hlength⟩, hrest⟩ := h'
    obtain ⟨before', slice'⟩ := p'
    dsimp only at hfirst hlength
    subst hfirst
    simp only [List.flatMap_cons, List.append_assoc]
    rcases Nat.lt_or_ge i before'.length with hin | hbehind
    · rw [List.getElem?_append_left hin, List.getElem?_append_left hin]
    -- behind what comes before the slice, but not in the range: behind the slice
    have hnot := hout r List.mem_cons_self
    rw [Range.mem_iff, Range.stop] at hnot
    have hslice' : slice.length ≤ i - before'.length := by omega
    rw [List.getElem?_append_right hbehind, List.getElem?_append_right hbehind,
      List.getElem?_append_right hslice', List.getElem?_append_right (hlength ▸ hslice'), hlength]
    refine ih hrest fun r' hr' => ?_
    have hposition : r.stop + (i - before'.length - slice.length) = position + i := by
      rw [Range.stop]
      omega
    rw [hposition]
    exact hout r' (List.mem_cons_of_mem _ hr')

/-! ## Edits of slices -/

/-- A change of a slice: whatever it does to the elements, it keeps their number. -/
structure Edit (α : Type) where
  /-- The position of the slice. -/
  slice : Nat
  change : List α → List α
  length_change : ∀ l, (change l).length = l.length

/-- The edit that writes an element of a slice. -/
def Edit.write (slice index : Nat) (value : α) : Edit α :=
  ⟨slice, fun l => l.set index value, fun _ => List.length_set⟩

/-- What a run of edits makes of a slice: it goes through its own edits, in their order. -/
def Edit.result (edits : List (Edit α)) (k : Nat) (slice : List α) : List α :=
  (edits.filter (·.slice = k)).foldl (fun l e => e.change l) slice

/-- Pieces after an edit of a slice. An edit of a slice that is not there does nothing. -/
def Split.edit (s : Split α) (e : Edit α) : Split α :=
  { s with pieces := s.pieces.modify e.slice fun p => (p.1, e.change p.2) }

/-- Pieces after a run of edits. -/
def Split.edited (s : Split α) (edits : List (Edit α)) : Split α := edits.foldl Split.edit s

namespace Edit

variable {e : Edit α} {edits : List (Edit α)} {slice : List α}

theorem result_cons :
    result (e :: edits) k slice =
      result edits k (if e.slice = k then e.change slice else slice) := by
  unfold result
  rw [List.filter_cons]
  split
  · next h => rw [if_pos (of_decide_eq_true h), List.foldl_cons]
  · next h => rw [if_neg fun heq => h (decide_eq_true heq)]

/-- Edits keep the number of elements. -/
theorem length_result (edits : List (Edit α)) (k : Nat) (slice : List α) :
    (result edits k slice).length = slice.length := by
  induction edits generalizing slice with
  | nil => rfl
  | cons e edits ih =>
    rw [result_cons, ih]
    split
    · exact e.length_change slice
    · rfl

end Edit

/-- A run of edits comes to each slice having gone through its own edits. -/
theorem Split.edited_eq_mapSlices (s : Split α) (edits : List (Edit α)) :
    s.edited edits = s.mapSlices (Edit.result edits) := by
  induction edits generalizing s with
  | nil =>
    have hsame : s.pieces.mapIdx (fun k p => (p.1, Edit.result [] k p.2)) = s.pieces :=
      List.mapIdx_eq_iff.2 fun k => by simp [Edit.result]
    rw [mapSlices, hsame]
    rfl
  | cons e edits ih =>
    show (s.edit e).edited edits = _
    rw [ih, mapSlices, mapSlices, edit]
    congr 1
    refine List.ext_getElem? fun k => ?_
    rw [List.getElem?_mapIdx, List.getElem?_mapIdx, List.getElem?_modify, Option.map_eq_map,
      Option.map_map]
    congr 1
    funext p
    obtain ⟨before, slice⟩ := p
    rw [Function.comp_apply]
    simp only [Edit.result_cons]
    split <;> rfl

/-- Slices that keep their lengths only differ in their contents. -/
theorem refilled_mapIdx {f : Nat → List α → List α} (h : ∀ k l, (f k l).length = l.length) :
    Refilled pieces (pieces.mapIdx fun k p => (p.1, f k p.2)) := by
  induction pieces generalizing f with
  | nil => exact .nil
  | cons p pieces ih =>
    rw [List.mapIdx_cons]
    exact .cons ⟨rfl, h 0 p.2⟩ (ih fun k => h (k + 1))

/-! ## Reading what was written -/

/-- The pieces of an arena along ranges: put together they are the arena, and there is one slice for
each range, in their order, with the length of the range and what the arena holds there. -/
structure Split.Parts (s : Split α) (a : Arena α) (rs : List Range) : Prop where
  join : s.join = a
  length : s.slices.length = rs.length
  slice : ∀ (k : Nat) (r : Range), rs[k]? = some r → ∃ slice : List α, s.slices[k]? = some slice ∧
    slice.length = r.length ∧ a.slice? r = some slice.toArray ∧
    ∀ index, a.read? r index = slice[index]?

/-- Pieces that lie along ranges are those of the arena that they are put together to. -/
theorem Along.parts (h : Along 0 rs s.pieces) : s.Parts s.join rs where
  join := rfl
  length := by rw [Split.slices, List.length_map, h.length_eq]
  slice k r hr := by
    obtain ⟨before, slice, hget, hlength, hoffset, after, happend⟩ := h.exists_append hr
    rw [Nat.zero_add] at hoffset
    have hdata : s.join.data = (before ++ slice ++ (after ++ s.rest)).toArray := by
      rw [Split.join, happend, List.append_assoc (before ++ slice)]
    refine ⟨slice, hget, hlength, ?_, fun index => ?_⟩
    · have hholds : s.join.holds r = true := by
        rw [holds, size, hdata, Range.stop, decide_eq_true_eq, List.size_toArray]
        simp only [List.length_append]
        omega
      rw [slice?, if_pos hholds, hdata, Range.stop]
      simp [List.extract_eq_take_drop, ← hoffset, ← hlength]
    · rw [read?, hdata]
      split
      · next hindex =>
        rw [List.getElem?_toArray, ← hoffset, List.append_assoc,
          List.getElem?_append_right (Nat.le_add_right _ _), Nat.add_sub_cancel_left,
          List.getElem?_append_left (by omega)]
      · next hindex => rw [List.getElem?_eq_none (by omega)]

/-- What a run of edits of an arena's slices comes to: every slice has gone through its own edits,
the arena that the pieces are put together to holds the slices where the ranges are, and outside of
the ranges it is as before. -/
structure Split.EditedTo (s : Split α) (a : Arena α) (rs : List Range) (edits : List (Edit α))
    (b : Arena α) : Prop where
  slices : ∀ (k : Nat) (slice : List α), s.slices[k]? = some slice →
    (s.edited edits).slices[k]? = some (Edit.result edits k slice)
  parts : (s.edited edits).Parts b rs
  size : b.size = a.size
  frame : ∀ i, (∀ r ∈ rs, i ∉ r) → b.data[i]? = a.data[i]?

/-- Edits of pieces that lie along ranges. -/
theorem Along.editedTo (h : Along 0 rs s.pieces) (edits : List (Edit α)) :
    s.EditedTo s.join rs edits (s.edited edits).join := by
  have hrefilled : Refilled s.pieces (s.edited edits).pieces := by
    rw [s.edited_eq_mapSlices]
    exact refilled_mapIdx (Edit.length_result edits)
  have hrest : (s.edited edits).rest = s.rest := by
    rw [s.edited_eq_mapSlices]
    rfl
  refine ⟨fun k slice hslice => ?_, (h.refilled hrefilled).parts, ?_, fun i hout => ?_⟩
  · rw [Split.slices, List.getElem?_map, Option.map_eq_some_iff] at hslice
    obtain ⟨p, hp, rfl⟩ := hslice
    rw [s.edited_eq_mapSlices, Split.slices, Split.mapSlices, List.getElem?_map,
      List.getElem?_mapIdx, hp]
    rfl
  · simp only [Arena.size, Split.join, List.size_toArray, List.length_append, hrefilled.length_eq,
      hrest]
  · simp only [Split.join, List.getElem?_toArray, hrest]
    exact h.getElem?_refilled hrefilled (by simpa using hout)

/-- Runs in which each slice has the same edits, in the same order, leave the same pieces. -/
theorem Split.edited_congr {edits edits' : List (Edit α)}
    (h : ∀ k, edits'.filter (·.slice = k) = edits.filter (·.slice = k)) :
    s.edited edits' = s.edited edits := by
  have hresult : Edit.result edits' = Edit.result edits := by
    funext k slice
    rw [Edit.result, Edit.result, h]
  rw [s.edited_eq_mapSlices, s.edited_eq_mapSlices, hresult]

/-! ## Ranges that calls hand out -/

/-- A call that adds elements to an arena. -/
inductive Call (α : Type) where
  | reserve (count : Nat)
  | extend (items : Array α)

/-- The range that a call hands out, and the arena after it. -/
def call? [Inhabited α] [Stored α] (a : Arena α) : Call α → Option (Range × Arena α)
  | .reserve count => a.reserve? count
  | .extend items => some (a.extend items)

/-- The ranges that some calls hand out, and the arena after them. -/
def callAll? [Inhabited α] [Stored α] (a : Arena α) : List (Call α) → Option (List Range × Arena α)
  | [] => some ([], a)
  | c :: calls => do
    let (r, a) ← a.call? c
    let (rs, a) ← a.callAll? calls
    return (r :: rs, a)

section
variable [Inhabited α] [Stored α]

/-- A call hands out what lies between the end of the arena before it and the end after it. -/
theorem call?_eq_some {c : Call α} (h : a.call? c = some (r, b)) :
    r.offset = a.size ∧ r.stop = b.size := by
  have hextend (items : Array α) (h : a.extend items = (r, b)) :
      r.offset = a.size ∧ r.stop = b.size := by
    cases h
    exact ⟨rfl, Array.size_append.symm⟩
  cases c with
  | reserve count =>
    rw [call?, reserve?, Option.ite_none_right_eq_some, Option.some_inj] at h
    exact hextend _ h.2
  | extend items => exact hextend _ (Option.some_inj.1 h)

/-- Calls hand out ranges side by side. -/
theorem tiles_of_callAll? {calls : List (Call α)} (h : a.callAll? calls = some (rs, b)) :
    Tiles a.size rs b.size := by
  induction calls generalizing a rs with
  | nil =>
    cases h
    exact rfl
  | cons c calls ih =>
    obtain ⟨⟨r, a'⟩, hcall, h⟩ := Option.bind_eq_some_iff.1 h
    obtain ⟨⟨rs', b'⟩, hcalls, h⟩ := Option.bind_eq_some_iff.1 h
    cases h
    obtain ⟨hoffset, hstop⟩ := call?_eq_some hcall
    exact ⟨hoffset, hstop ▸ ih hcalls⟩

end

/-- Ranges side by side follow each other. -/
theorem Tiles.pairwise {lo hi : Nat} (h : Tiles lo rs hi) :
    rs.Pairwise fun r r' => r.stop ≤ r'.offset := by
  induction rs generalizing lo with
  | nil => exact .nil
  | cons r rest ih =>
    exact .cons (fun r' hr' => (h.2.bounds hr').1) (ih h.2)

/-- Ranges that follow each other and lie within an arena do so if some of them are left out. -/
theorem Tiles.of_sublist (h : Tiles a.size rs b.size) (hrs : rs'.Sublist rs) :
    Sorted rs' ∧ Apart rs' ∧ ∀ r ∈ rs', b.holds r := by
  rw [← and_assoc, sorted_and_apart_iff]
  refine ⟨h.pairwise.sublist hrs, fun r hr => ?_⟩
  rw [holds, decide_eq_true_iff]
  exact (h.bounds (hrs.subset hr)).2

/-! ## Splitting is faithful -/

end Candela.Arena
