import Candela.Environment.InPlace
import Candela.Proofs.Environment.Sampling
import Candela.Proofs.Result

/-!
# Building in place builds the same table

The loops write the table from its beginning to its end: whatever has been written is as it is in
the table (`InPlace.Filled`), and what a step reads has been written before, since a level lies
behind the level below it (`InPlace.Filled.sumCell`). So the loops never look for a place that is not there
and leave the table of the pyramid (`InPlace.build?_eq`).
-/

namespace Candela.Environment.InPlace

variable {α : Type} {l : Layout} {data target : Array α} {level n x y : Nat}

/-! ## Loops -/

/-- What every step of a loop carries on holds after the loop. -/
theorem exists_loop? {p : Nat → Array α → Prop} {body : Nat → Array α → Option (Array α)}
    (hbody : ∀ i < n, ∀ data, p i data → ∃ data', body i data = some data' ∧ p (i + 1) data')
    (h : p 0 data) : ∃ data', loop? n body data = some data' ∧ p n data' :=
  exists_foldlM_range hbody h

/-- The beginning of an array is as it is in another one. -/
structure Filled (target : Array α) (n : Nat) (data : Array α) : Prop where
  size : data.size = target.size
  get : ∀ i < n, data[i]? = target[i]?

/-- Writing what stands in the other array next fills one place more. -/
theorem Filled.set? (h : Filled target n data) {a : α} (ha : target[n]? = some a) :
    ∃ data', InPlace.set? data n a = some data' ∧ Filled target (n + 1) data' := by
  have hn : n < data.size := by
    rw [h.size]
    exact (Array.getElem?_eq_some_iff.1 ha).1
  refine ⟨data.setIfInBounds n a, if_pos hn, ?_, fun i hi => ?_⟩
  · rw [Array.size_setIfInBounds, h.size]
  · rcases Nat.lt_succ_iff_lt_or_eq.1 hi with hlt | rfl
    · rw [Array.getElem?_setIfInBounds_ne (Nat.ne_of_gt hlt), h.get i hlt]
    · rw [Array.getElem?_setIfInBounds_self_of_lt hn, ha]

/-- What is filled to the end is the other array. -/
theorem Filled.eq (h : Filled target target.size data) : data = target := by
  refine Array.ext_getElem? fun i => ?_
  by_cases hi : i < target.size
  · exact h.get i hi
  · rw [Array.getElem?_eq_none (Nat.not_lt.1 hi), Array.getElem?_eq_none (h.size ▸ Nat.not_lt.1 hi)]

/-! ## Levels -/

section
variable [OfNat α 0] [Add α] [Mul α] [Div α] [LT α] [DecidableLT α] [Scalar α]
  {base : Vector α (4 ^ l.exponent)}

/-- What a step adds up has been written before, and the sum is the value of its cell. -/
theorem Filled.sumCell (hlevel : level < l.exponent) (hx : x < l.levelResolution (level + 1))
    (hy : y < l.levelResolution (level + 1))
    (h : Filled (Table.ofCells l base).data
      (l.levelOffset (level + 1) + y * l.levelResolution (level + 1) + x) data) :
    ∃ data', sumCell? l (level + 1) y x data = some data' ∧ Filled (Table.ofCells l base).data
      (l.levelOffset (level + 1) + y * l.levelResolution (level + 1) + x + 1) data' := by
  have hresolution := l.levelResolution_eq hlevel
  have hread {m n : Nat} (hm : m < l.levelResolution level) (hn : n < l.levelResolution level) :
      data[l.cell level m n]? = some ((Table.ofCells l base).value level m n) := by
    rw [h.get _ ((l.cell_lt_levelOffset hlevel hm hn).trans_le (by omega))]
    exact (Table.ofCells l base).getElem?_cell hlevel.le hm hn
  have hfirst : l.cell level (2 * x) (2 * y) =
      l.levelOffset level + 2 * y * (2 * l.levelResolution (level + 1)) + 2 * x := by
    rw [Layout.cell, hresolution, Nat.add_assoc]
  have hright (m n : Nat) : l.cell level (m + 1) n = l.cell level m n + 1 := rfl
  have hbelow (m n : Nat) :
      l.cell level m (n + 1) = l.cell level m n + 2 * l.levelResolution (level + 1) := by
    rw [Layout.cell, Layout.cell, hresolution, Nat.succ_mul]
    omega
  have ha := hread (m := 2 * x) (n := 2 * y) (by omega) (by omega)
  have hb := hread (m := 2 * x + 1) (n := 2 * y) (by omega) (by omega)
  have hc := hread (m := 2 * x) (n := 2 * y + 1) (by omega) (by omega)
  have hd := hread (m := 2 * x + 1) (n := 2 * y + 1) (by omega) (by omega)
  rw [hright, hbelow] at hd
  rw [hright] at hb
  rw [hbelow] at hc
  rw [hfirst] at ha hb hc hd
  have hwritten := (Table.ofCells l base).getElem?_cell hlevel hx hy
  rw [Layout.cell, ← Nat.add_assoc, Table.value_succ_ofCells hlevel hx hy] at hwritten
  obtain ⟨data', hset, hfilled⟩ := h.set? hwritten
  refine ⟨data', ?_, hfilled⟩
  rw [sumCell?, Nat.add_sub_cancel, ha, hb, hc, hd]
  exact hset

/-- A level is written behind the level below it. -/
theorem Filled.sumLevel (hlevel : level < l.exponent)
    (h : Filled (Table.ofCells l base).data (l.levelOffset (level + 1)) data) :
    ∃ data', sumLevel? l (level + 1) data = some data' ∧ Filled (Table.ofCells l base).data
      (l.levelOffset (level + 1) + l.levelResolution (level + 1) * l.levelResolution (level + 1))
      data' := by
  refine exists_loop? (p := fun y => Filled (Table.ofCells l base).data
    (l.levelOffset (level + 1) + y * l.levelResolution (level + 1))) (fun y hy data h => ?_)
    (by rwa [Nat.zero_mul])
  obtain ⟨data', hrow, hfilled⟩ := exists_loop? (p := fun x => Filled (Table.ofCells l base).data
    (l.levelOffset (level + 1) + y * l.levelResolution (level + 1) + x))
    (fun x hx data h => h.sumCell hlevel hx hy) h
  refine ⟨data', hrow, ?_⟩
  rwa [Nat.succ_mul, ← Nat.add_assoc]

/-- All levels are written behind the importances. -/
theorem exists_sumLevels (base : Vector α (4 ^ l.exponent)) :
    ∃ data, sumLevels? l (base.toArray ++ Array.replicate (l.length - base.toArray.size) 0) =
      some data ∧ Filled (Table.ofCells l base).data l.pdfOffset data := by
  have hstart : Filled (Table.ofCells l base).data (4 ^ l.exponent)
      (base.toArray ++ Array.replicate (l.length - base.toArray.size) 0) := by
    constructor
    · rw [Array.size_append, Array.size_replicate, Vector.size_toArray,
        (Table.ofCells l base).size_data]
      exact Nat.add_sub_cancel' (Nat.le_add_left _ _)
    · intro i hi
      rw [Table.getElem?_ofCells hi, Array.getElem?_append, Vector.size_toArray, if_pos hi]
      simp [hi]
  have hstart : Filled (Table.ofCells l base).data
      (l.levelOffset 0 + l.levelResolution 0 * l.levelResolution 0)
      (base.toArray ++ Array.replicate (l.length - base.toArray.size) 0) := by
    rwa [l.levelOffset_zero, Nat.zero_add, Layout.levelResolution, Layout.two_pow_mul_self]
  have hlevel : ∀ i < l.exponent, ∀ data, Filled (Table.ofCells l base).data
      (l.levelOffset i + l.levelResolution i * l.levelResolution i) data →
      ∃ data', sumLevel? l (i + 1) data = some data' ∧ Filled (Table.ofCells l base).data
        (l.levelOffset (i + 1) + l.levelResolution (i + 1) * l.levelResolution (i + 1)) data' :=
    fun i hi data h => Filled.sumLevel hi (l.levelOffset_add hi ▸ h)
  obtain ⟨data, hrun, hfilled⟩ := exists_loop? hlevel hstart
  refine ⟨data, hrun, ?_⟩
  rw [Layout.levelResolution, Nat.sub_self] at hfilled
  exact l.totalOffset_add_one ▸ hfilled

/-! ## Densities -/

/-- The densities are written behind the levels. -/
theorem Filled.putDensity {i : Nat} (hi : i < 4 ^ l.exponent)
    (h : Filled (Table.ofCells l base).data (l.pdfOffset + i) data) :
    ∃ data', putDensity? l (Table.ofCells l base).total i data = some data' ∧
      Filled (Table.ofCells l base).data (l.pdfOffset + i + 1) data' := by
  have hcells : 4 ^ l.exponent ≤ l.pdfOffset := by
    have hpow : 4 ^ (l.exponent + 1) = 4 * 4 ^ l.exponent := Nat.pow_succ'
    have hpos : 0 < 4 ^ l.exponent := Nat.pow_pos (by decide)
    unfold Layout.pdfOffset
    omega
  have hread : data[i]? = some base[i] := by
    rw [h.get i (by omega), Table.getElem?_ofCells hi]
  obtain ⟨data', hset, hfilled⟩ := h.set? (Table.getElem?_pdfOffset hi)
  refine ⟨data', ?_, hfilled⟩
  rw [putDensity?, hread]
  show InPlace.set? data _ (Table.density (2 ^ l.exponent * 2 ^ l.exponent) _ _) = _
  rw [Layout.two_pow_mul_self]
  exact hset

/-! ## Main result -/

/-- The loops build the table, and nothing where the importances are not as many as the cells. -/
theorem build?_eq (l : Layout) (base : Array α) :
    build? l base = (Table.ofImportance l base).toOption.map (·.data) := by
  have hcells : l.resolution * l.resolution = 4 ^ l.exponent := Layout.two_pow_mul_self _
  rw [build?, hcells]
  by_cases hsize : base.size = 4 ^ l.exponent
  · obtain ⟨data, hlevels, hfilled⟩ := exists_sumLevels ⟨base, hsize⟩
    have htotal : data[l.totalOffset]? = some (Table.ofCells l ⟨base, hsize⟩).total := by
      rw [hfilled.get _ (by rw [← l.totalOffset_add_one]; omega), ← Layout.cell_exponent,
        ← Table.value_exponent]
      exact Table.getElem?_cell _ (Nat.le_refl l.exponent) (Nat.two_pow_pos _) (Nat.two_pow_pos _)
    obtain ⟨data', hrun, hfilled'⟩ := exists_loop? (n := 4 ^ l.exponent)
      (p := fun i => Filled (Table.ofCells l ⟨base, hsize⟩).data (l.pdfOffset + i))
      (fun i hi data h => h.putDensity hi) hfilled
    have hend : data' = (Table.ofCells l ⟨base, hsize⟩).data :=
      Filled.eq ((Table.ofCells l ⟨base, hsize⟩).size_data ▸ hfilled')
    rw [if_pos hsize, Table.ofImportance, dif_pos hsize]
    show (sumLevels? l (base ++ Array.replicate (l.length - base.size) 0)).bind _ = _
    rw [hlevels]
    show (data[l.totalOffset]?).bind _ = _
    rw [htotal]
    exact hrun.trans (congrArg some hend)
  · rw [if_neg hsize, Table.ofImportance, dif_neg hsize]
    rfl

end

end Candela.Environment.InPlace
