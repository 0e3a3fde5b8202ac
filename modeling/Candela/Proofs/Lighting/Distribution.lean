import Candela.Lighting.InPlace
import Candela.Proofs.Lighting.Draft
import Candela.Proofs.Single.Share

/-!
# Distributions over triangles

Areas are not negative, so their running sums do not fall as long as the last one is finite
(`sorted_runningSums`), and they stand still where nothing is added (`getElem?_runningSums`).
Dividing them by the last one keeps both, and brings the last one to one: what comes out is a
cumulative distribution (`Cumulative`, `cumulative_distribution`). So the first triangle that a
number leads to is always one that radiates light (`Cumulative.exists_first`). If the areas come to
nothing, nothing but zeros is left (`distribution_eq_zero`).
-/

namespace Candela.Lighting

open Single

variable {areas : List (Option Float32)} {area : Option Float32} {total u : Float32} {w : ℚ}

/-! ## Sums -/

theorem runningSums_cons (total : Float32) (area : Option Float32)
    (rest : List (Option Float32)) :
    runningSums total (area :: rest) =
      addArea total area :: runningSums (addArea total area) rest := by
  cases area <;> rfl

/-- The sum with one more area comes last. -/
theorem runningSums_concat (total : Float32) (areas : List (Option Float32))
    (area : Option Float32) :
    runningSums total (areas ++ [area]) =
      runningSums total areas ++ [addArea ((runningSums total areas).getLastD total) area] := by
  induction areas generalizing total with
  | nil => exact runningSums_cons total area []
  | cons a rest ih =>
    rw [List.cons_append, runningSums_cons, runningSums_cons, ih, List.getLastD_cons]
    rfl

/-- Where nothing is added, the sum is the one before. -/
theorem getElem?_runningSums {i : ℕ} (h : areas[i]? = some none) :
    (runningSums total areas)[i]? = (total :: runningSums total areas)[i]? := by
  induction areas generalizing total i with
  | nil => cases h
  | cons area rest ih =>
    rw [runningSums_cons]
    cases i with
    | zero =>
      obtain rfl : area = none := Option.some.inj h
      rfl
    | succ i => exact ih h

/-- What is added is not negative. -/
def NoneNegative (areas : List (Option Float32)) : Prop := ∀ a, some a ∈ areas → ¬ a < 0

theorem NoneNegative.of_cons (h : NoneNegative (area :: areas)) : NoneNegative areas :=
  fun a ha => h a (.tail _ ha)

/-- A sum that is not negative stays so. -/
theorem not_neg_addArea (htotal : ¬ total < 0) (h : NoneNegative (area :: areas)) :
    ¬ addArea total area < 0 := by
  cases area with
  | none => exact htotal
  | some a => exact not_neg_add htotal (h a (.head _))

/-- A step: adding an area to a sum. -/
theorem le_addArea (htotal : ¬ total < 0) (h : NoneNegative (area :: areas))
    (hsum : Denotes (addArea total area) w) :
    (∃ p, Denotes total p) ∧ total ≤ addArea total area := by
  cases area with
  | none => exact ⟨⟨w, hsum⟩, le_self hsum.isNaN_eq_false⟩
  | some a =>
    have ha := h a (.head _)
    obtain ⟨p, -, hp, -, -⟩ := hsum.of_add htotal ha
    exact ⟨⟨p, hp⟩, le_add htotal ha hsum.isNaN_eq_false⟩

/-- The last sum is not negative. -/
theorem not_neg_last (htotal : ¬ total < 0) (h : NoneNegative areas) :
    ¬ (runningSums total areas).getLastD total < 0 := by
  induction areas generalizing total with
  | nil => exact htotal
  | cons area rest ih =>
    rw [runningSums_cons, List.getLastD_cons]
    exact ih (not_neg_addArea htotal h) h.of_cons

/-- If the last sum is finite, all of them are, and they do not fall. -/
theorem sorted_runningSums (htotal : ¬ total < 0) (h : NoneNegative areas)
    (hlast : Denotes ((runningSums total areas).getLastD total) w) :
    (∃ p, Denotes total p) ∧ (total :: runningSums total areas).Pairwise (· ≤ ·) := by
  induction areas generalizing total with
  | nil => exact ⟨⟨w, hlast⟩, List.pairwise_singleton _ _⟩
  | cons area rest ih =>
    rw [runningSums_cons, List.getLastD_cons] at hlast
    obtain ⟨⟨p, hp⟩, hsorted⟩ := ih (not_neg_addArea htotal h) h.of_cons hlast
    obtain ⟨hfinite, hle⟩ := le_addArea htotal h hp
    rw [runningSums_cons]
    refine ⟨hfinite, List.pairwise_cons.2 ⟨fun x hx => ?_, hsorted⟩⟩
    rcases List.mem_cons.1 hx with rfl | hx
    · exact hle
    · exact le_trans hle ((List.pairwise_cons.1 hsorted).1 x hx)

/-- Nothing that does not fall comes to more than its end. -/
theorem le_getLastD {sums : List Float32} {x d : Float32} (h : sums.Pairwise (· ≤ ·))
    (hnumber : (sums.getLastD d).isNaN = false) (hx : x ∈ sums) : x ≤ sums.getLastD d := by
  rcases List.eq_nil_or_concat' sums with rfl | ⟨init, last, rfl⟩
  · cases hx
  · rw [List.getLastD_concat] at hnumber ⊢
    rcases List.mem_append.1 hx with hinit | hlast
    · exact (List.pairwise_append.1 h).2.2 x hinit last (.head _)
    · rw [List.mem_singleton.1 hlast]
      exact le_self hnumber

/-! ## Nothing -/

/-- What has a value and is no more than zero is zero. -/
theorem denotes_zero_of_le {x : Float32} (hx : ¬ x < 0) (hle : x ≤ 0) : Denotes x 0 := by
  have hzero : 0 ≤ x :=
    (not_lt_iff (isNaN_of_le hle).1 denotes_zero.isNaN_eq_false).1 hx
  obtain ⟨p, hp, hle⟩ := denotes_zero.of_le hzero hle
  obtain rfl := le_antisymm hle hp.nonneg
  exact hp

/-- Sums of nothing are zero, to the last bit. -/
theorem runningSums_zero (h : ∀ a, some a ∈ areas → Denotes a 0) :
    runningSums 0 areas = List.replicate areas.length 0 := by
  induction areas with
  | nil => rfl
  | cons area rest ih =>
    have hstep : addArea 0 area = 0 := by
      cases area with
      | none => rfl
      | some a => exact zero_add_of_denotes (h a (.head _))
    rw [runningSums_cons, hstep, ih fun a ha => h a (.tail _ ha)]
    rfl

/-- If the last sum is zero, nothing has been added. -/
theorem denotes_zero_of_last (htotal : ¬ total < 0) (h : NoneNegative areas)
    (hlast : Denotes ((runningSums total areas).getLastD total) 0) {a : Float32}
    (ha : some a ∈ areas) : Denotes a 0 := by
  induction areas generalizing total with
  | nil => cases ha
  | cons area rest ih =>
    have hnext := not_neg_addArea htotal h
    rw [runningSums_cons, List.getLastD_cons] at hlast
    rcases List.mem_cons.1 ha with rfl | ha
    · -- the sum with this area is between zero and the last one
      obtain ⟨⟨p, hp⟩, hsorted⟩ := sorted_runningSums hnext h.of_cons hlast
      have hle := le_getLastD (d := 0) hsorted (by
        rw [List.getLastD_cons]
        exact hlast.isNaN_eq_false) (.head _)
      rw [List.getLastD_cons] at hle
      obtain rfl := le_antisymm ((hp.le_iff hlast).1 hle) hp.nonneg
      obtain ⟨q, r, hq, hr, hsum⟩ := hp.of_add htotal (h a (.head _))
      have hzero : r ≤ 0 := hsum ▸ hr.representable.le_nearest (le_add_of_nonneg_left hq.nonneg)
      obtain rfl := le_antisymm hzero hr.nonneg
      exact hr
    · exact ih hnext h.of_cons hlast ha

/-! ## Distributions -/

/-- A cumulative distribution: it goes from zero to one, does not fall, and comes to one. It stands
still where a triangle does not radiate light. -/
structure Cumulative (radiates : ℕ → Prop) (entries : List Float32) : Prop where
  bounds : ∀ w ∈ entries, 0 ≤ w ∧ w ≤ 1
  sorted : entries.Pairwise (· ≤ ·)
  last : entries.getLast? = some 1
  dark : ∀ i < entries.length, ¬ radiates i → entries[i]? = (0 :: entries)[i]?

theorem Cumulative.mono {p q : ℕ → Prop} {entries : List Float32} (h : Cumulative p entries)
    (hpq : ∀ i, p i → q i) : Cumulative q entries :=
  ⟨h.bounds, h.sorted, h.last, fun i hi hq => h.dark i hi (mt (hpq i) hq)⟩

/-- The first entry above a number is that of a triangle that radiates light. -/
theorem Cumulative.exists_first {radiates : ℕ → Prop} {entries : List Float32}
    (h : Cumulative radiates entries) (hu : 0 ≤ u) (hlt : u < 1) :
    ∃ i, entries.findIdx? (u < ·) = some i ∧ radiates i := by
  obtain ⟨i, hi⟩ : ∃ i, entries.findIdx? (u < ·) = some i := by
    rw [← Option.isSome_iff_exists, List.findIdx?_isSome, List.any_eq_true]
    exact ⟨1, List.mem_of_getLast? h.last, decide_eq_true hlt⟩
  refine ⟨i, hi, ?_⟩
  obtain ⟨hlength, habove, hbelow⟩ := List.findIdx?_eq_some_iff_getElem.1 hi
  by_contra hdark
  have hsame := h.dark i hlength hdark
  rw [List.getElem?_eq_getElem hlength] at hsame
  cases i with
  | zero =>
    rw [Option.some.inj hsame] at habove
    exact not_lt_self 0 (lt_of_le_of_lt hu (of_decide_eq_true habove))
  | succ i =>
    rw [List.getElem?_cons_succ, List.getElem?_eq_getElem (by omega)] at hsame
    rw [Option.some.inj hsame] at habove
    exact hbelow i (Nat.lt_succ_self i) habove

/-- Running sums of areas that are not negative, over the last one. -/
theorem cumulative_distribution (h : NoneNegative areas) (hpos : 0 < (distribution areas).1)
    (hfinite : (distribution areas).1.isFinite = true) :
    Cumulative (fun i => ∃ a, areas[i]? = some (some a)) (distribution areas).2 := by
  have hlast : (distribution areas).1 = (runningSums 0 areas).getLastD 0 := rfl
  have hentries : (distribution areas).2 =
      (runningSums 0 areas).map (· / (distribution areas).1) := if_pos hpos
  generalize (distribution areas).1 = total at *
  obtain ⟨w, hw⟩ := exists_denotes_iff.2
    ⟨hfinite, fun hlt => not_lt_self 0 (lt_trans hpos hlt)⟩
  have hw₀ : 0 < w := (denotes_zero.lt_iff hw).1 hpos
  obtain ⟨-, hsorted⟩ := sorted_runningSums (not_lt_self 0) h (hlast ▸ hw)
  obtain ⟨hnonneg, hsorted⟩ := List.pairwise_cons.1 hsorted
  have hle {x : Float32} (hx : x ∈ runningSums 0 areas) : x ≤ total := by
    rw [hlast] at hw ⊢
    exact le_getLastD hsorted hw.isNaN_eq_false hx
  rw [hentries]
  constructor
  · rintro _ hmem
    obtain ⟨x, hx, rfl⟩ := List.mem_map.1 hmem
    obtain ⟨hlow, -, hhigh⟩ := div_mono (hnonneg x hx)
      (le_self (isNaN_of_le (hle hx)).1) (hle hx) hw hw₀
    exact ⟨hlow, hhigh⟩
  · rw [List.pairwise_map]
    refine hsorted.imp_of_mem fun hx hy hxy => ?_
    exact (div_mono (hnonneg _ hx) hxy (hle hy) hw hw₀).2.1
  · have hsome : (runningSums 0 areas).getLast? = some total := by
      rw [List.getLastD_eq_getLast?] at hlast
      cases hl : (runningSums 0 areas).getLast? with
      | none =>
        rw [hlast, hl] at hpos
        exact absurd hpos (not_lt_self 0)
      | some x => rw [hlast, hl, Option.getD_some]
    rw [List.getLast?_map, hsome, Option.map_some, hw.div_eq_one hw₀]
  · intro i hi hdark
    rw [List.length_map, length_runningSums] at hi
    have hnone : areas[i]? = some none := by
      rw [List.getElem?_eq_getElem hi] at hdark ⊢
      cases hi' : areas[i] with
      | none => rfl
      | some a => exact absurd ⟨a, by rw [hi']⟩ hdark
    have hsame : (runningSums 0 areas)[i]? = (0 :: runningSums 0 areas)[i]? :=
      getElem?_runningSums hnone
    -- zero has no share in the total, so the sum before the first one can be divided, too
    have hcons : 0 :: (runningSums 0 areas).map (· / total) =
        (0 :: runningSums 0 areas).map (· / total) := by
      rw [List.map_cons, hw.zero_div_eq hw₀]
    rw [hcons, List.getElem?_map, List.getElem?_map, hsame]

/-- Where nothing radiates, there are zeros only. -/
theorem distribution_eq_zero (h : ∀ a, some a ∈ areas → Denotes a 0) :
    distribution areas = (0, List.replicate areas.length 0) := by
  have hlast : (runningSums 0 areas).getLastD 0 = 0 := by
    rw [runningSums_zero h, List.getLastD_eq_getLast?, List.getLast?_replicate]
    split <;> rfl
  rw [distribution, hlast]
  exact congrArg (Prod.mk 0) ((if_neg (not_lt_self 0)).trans (runningSums_zero h))

end Candela.Lighting
