import Candela.Proofs.Bvh.Subtrees
import Candela.Proofs.Single.Sign

/-!
# Which items are kept together

A node is a leaf if there are few items below it, if it is at the greatest depth, or if no border
between bins makes the items below it cheaper than they are together (`ofBoxes_isLeaf_iff`). What a
border costs has the cost of one more step in it, which is one, while what the items cost together
is measured by the area of their box. So however many items there are, they are kept together as
long as their box is small (`keptTogether_of_le_one`): cubes that are kept together are divided once
they are all made larger (`cubes_unsplit`).
-/

namespace Candela

/-! ## Areas -/

/-- Areas are not negative. -/
theorem Box.not_neg_area (b : Box Float32) : ¬ b.area < 0 := by
  unfold Box.area
  split
  · exact Single.not_lt_self 0
  · next hempty =>
    simp only [Box.isEmpty, Bool.or_eq_true, decide_eq_true_eq, not_or] at hempty
    obtain ⟨⟨hx, hy⟩, hz⟩ := hempty
    have hx : ¬ b.size.x < 0 := Single.not_neg_sub hx
    have hy : ¬ b.size.y < 0 := Single.not_neg_sub hy
    have hz : ¬ b.size.z < 0 := Single.not_neg_sub hz
    have htwo : ¬ (2 : Float32) < 0 := Single.not_neg_ofNat 2
    exact Single.not_neg_mul htwo (Single.not_neg_add
      (Single.not_neg_add (Single.not_neg_mul hx hy) (Single.not_neg_mul hy hz))
      (Single.not_neg_mul hz hx))

namespace Bvh

variable {l : List Split} {s : Split} {items : List Item} {boxes : List (Box Float32)}
  {limit depth i : Nat} {node : Node}

/-! ## The cheapest split -/

/-- The cost of the best split so far; that of none is infinite. -/
def leastCost (best : Option Split) : Float32 := (best.map (·.cost)).getD Single.infinity

theorem cheapest?_concat (l : List Split) (s : Split) :
    cheapest? (l ++ [s]) = if s.cost < leastCost (cheapest? l) then some s else cheapest? l := by
  rw [cheapest?, List.foldl_append]
  rfl

/-- No split costs less than the cheapest one. -/
theorem not_lt_leastCost (l : List Split) : ∀ s ∈ l, ¬ s.cost < leastCost (cheapest? l) := by
  induction l using List.reverseRecOn with
  | nil => exact nofun
  | append_singleton l a ih =>
    intro s hs
    rw [cheapest?_concat]
    split
    · next hcheaper =>
      rcases List.mem_append.1 hs with hs | hs
      · exact fun hlt => ih s hs (Single.lt_trans hlt hcheaper)
      · obtain rfl := List.mem_singleton.1 hs
        exact Single.not_lt_self _
    · next hdearer =>
      rcases List.mem_append.1 hs with hs | hs
      · exact ih s hs
      · obtain rfl := List.mem_singleton.1 hs
        exact hdearer

/-- The cheapest split has a cost. -/
theorem lt_infinity_of_cheapest? (h : cheapest? l = some s) : s.cost < Single.infinity := by
  induction l using List.reverseRecOn generalizing s with
  | nil => cases h
  | append_singleton l a ih =>
    rw [cheapest?_concat] at h
    split at h
    · next hcheaper =>
      cases h
      cases hbest : cheapest? l with
      | none => rwa [hbest] at hcheaper
      | some best =>
        rw [hbest] at hcheaper
        exact Single.lt_trans hcheaper (ih hbest)
    · exact ih h

/-! ## Keeping items together -/

/-- What it costs to keep items together: their number, times the area of the box around them. -/
def keepingCost (items : List Item) : Float32 :=
  Float32.ofNat items.length * (Box.union (items.map (·.box))).area

/-- Items are not divided if no border between bins that has a cost makes them cheaper. -/
def KeptTogether (items : List Item) : Prop :=
  ∀ s ∈ splits items, s.cost < Single.infinity → keepingCost items ≤ s.cost

/-- The builder finds no split for few items, at the greatest depth, and for items that are kept
together. -/
theorem split?_eq_none_iff :
    InPlace.split? limit depth items (Box.union (items.map (·.box))) = none ↔
      items.length ≤ maxLeafSize ∨ limit ≤ depth ∨ KeptTogether items := by
  unfold InPlace.split?
  by_cases hsmall : items.length ≤ maxLeafSize ∨ limit ≤ depth
  · rw [if_pos hsmall]
    exact iff_of_true rfl (or_assoc.1 (.inl hsmall))
  · rw [if_neg hsmall, ← or_assoc, or_iff_right hsmall, Option.filter_eq_none_iff]
    constructor
    · intro hdear s hs hfinite
      have hleast := not_lt_leastCost (splits items) s hs
      cases hcheapest : cheapest? (splits items) with
      | none =>
        rw [hcheapest] at hleast
        exact absurd hfinite hleast
      | some best =>
        rw [hcheapest] at hleast
        have hkeep : keepingCost items ≤ best.cost := by
          simpa [Split.isDear, keepingCost] using hdear best hcheapest
        have hnumber := (Single.isNaN_of_lt hfinite).1
        have hbest := (Single.isNaN_of_le hkeep).2
        exact Single.le_trans hkeep ((Single.not_lt_iff hnumber hbest).1 hleast)
    · intro hkept best hcheapest
      have hkeep := hkept best (InPlace.mem_of_cheapest? hcheapest)
        (lt_infinity_of_cheapest? hcheapest)
      simpa [Split.isDear, keepingCost] using hkeep

/-- The work for the items in a bin is not negative. -/
theorem Bin.not_neg_cost (b : Bin) : ¬ b.cost < 0 :=
  Single.not_neg_mul (Single.not_neg_ofNat _) b.box.not_neg_area

/-- What a split costs: one for the step, and the work for either side. -/
theorem exists_cost_of_mem_splits (h : s ∈ splits items) :
    ∃ left right : Bin, s.cost = 1 + (left.cost + right.cost) := by
  obtain ⟨axis, -, hs⟩ := List.mem_flatMap.1 h
  unfold splitsAlong at hs
  dsimp only at hs
  split at hs
  · cases hs
  · obtain ⟨i, hi, rfl⟩ := List.mem_mapIdx.1 hs
    exact ⟨_, _, rfl⟩

/-- No split costs less than the step does. -/
theorem one_le_cost_of_mem_splits (h : s ∈ splits items) (hfinite : s.cost < Single.infinity) :
    1 ≤ s.cost := by
  obtain ⟨left, right, hcost⟩ := exists_cost_of_mem_splits h
  have hnumber := (Single.isNaN_of_lt hfinite).1
  rw [hcost] at hnumber ⊢
  exact Single.le_add (Single.not_neg_ofNat 1)
    (Single.not_neg_add left.not_neg_cost right.not_neg_cost) hnumber

/-- Items that cost no more together than a step does are not divided, however many they are. -/
theorem keptTogether_of_le_one (h : keepingCost items ≤ 1) : KeptTogether items :=
  fun _ hs hfinite => Single.le_trans h (one_le_cost_of_mem_splits hs hfinite)

/-! ## Leaves -/

/-- A node of a hierarchy is a leaf if there are few items below it, if it is at the greatest depth,
or if the items are kept together; so it is one if they cost no more together than a step does. -/
theorem ofBoxes_isLeaf_iff (hboxes : boxes ≠ []) (hdepth : AtDepth (ofBoxes boxes).nodes i depth)
    (hnode : (ofBoxes boxes).nodes[i]? = some node) :
    ∃ part, Below boxes (ofBoxes boxes).nodes (ofBoxes boxes).items i part ∧
      (node.isLeaf = true ↔
        part.length ≤ maxLeafSize ∨ depth = maxDepth ∨ KeptTogether part) ∧
      (keepingCost part ≤ 1 → node.isLeaf = true) := by
  have hproper : Proper maxDepth boxes.length (ofBoxes boxes).nodes (ofBoxes boxes).items :=
    proper_ofBoxesLimited hboxes
  obtain ⟨d, hd, hunique⟩ := hproper.depth_le i (Array.getElem?_eq_some_iff.1 hnode).1
  obtain rfl := (hunique depth).1 hdepth
  have htree : ofBoxes boxes = ⟨some (Tree.build maxDepth (itemsOf boxes))⟩ :=
    ofBoxesLimited_eq hboxes
  rw [htree] at hdepth hnode ⊢
  obtain ⟨first, part, hstands⟩ := Tree.exists_stands hdepth
  have hleaf : node.isLeaf = true ↔
      part.length ≤ maxLeafSize ∨ depth = maxDepth ∨ KeptTogether part := by
    rw [hstands.isLeaf_iff hnode, split?_eq_none_iff, Nat.le_antisymm_iff, and_iff_right hd]
  exact ⟨part, hstands.below, hleaf,
    fun hsmall => hleaf.2 (.inr (.inr (keptTogether_of_le_one hsmall)))⟩

/-- Five cubes in a row, with room for one more between any two. -/
def cubes (size : Float32) : List (Box Float32) :=
  (List.range 5).map fun i =>
    let x := Float32.ofNat (2 * i) * size
    ⟨⟨x, 0, 0⟩, ⟨x + size, size, size⟩⟩

/-- The root over five small cubes is a leaf, which is not at the greatest depth; so there are few
cubes below it or they are kept together. -/
theorem ofBoxes_isLeaf_iff_cubes :
    cubes (1 / 32) ≠ [] ∧ AtDepth (ofBoxes (cubes (1 / 32))).nodes 0 0 ∧
      ∃ node part, (ofBoxes (cubes (1 / 32))).nodes[0]? = some node ∧
        Below (cubes (1 / 32)) (ofBoxes (cubes (1 / 32))).nodes (ofBoxes (cubes (1 / 32))).items 0
          part ∧
        (part.length ≤ maxLeafSize ∨ KeptTogether part) := by
  have hboxes : cubes (1 / 32) ≠ [] := nofun
  have hroot : AtDepth (ofBoxes (cubes (1 / 32))).nodes 0 0 := .root
  have hisLeaf : ((ofBoxes (cubes (1 / 32))).nodes[0]?.map Node.isLeaf) = some true := by
    decide +kernel
  obtain ⟨node, hnode, hleaf⟩ := Option.map_eq_some_iff.1 hisLeaf
  obtain ⟨part, hbelow, hiff, -⟩ := ofBoxes_isLeaf_iff hboxes hroot hnode
  refine ⟨hboxes, hroot, node, part, hnode, hbelow, ?_⟩
  rcases hiff.1 hleaf with hfew | hdeep | hkept
  · exact .inl hfew
  · exact absurd hdeep (by decide)
  · exact .inr hkept

/-- Five small cubes are all below one node, though they are more than a set that is not split may
have, though the node is not at the greatest depth, and though no two of them have the same middle.
Once they are made larger they are split. -/
theorem cubes_unsplit :
    (∀ b ∈ cubes (1 / 32), ∀ x ∈ b.lower.toList ++ b.upper.toList, x.isFinite = true) ∧
      ((cubes (1 / 32)).map (·.centroid)).Nodup ∧
      (ofBoxes (cubes (1 / 32))).nodes.toList.map Node.span = [List.range 5] ∧
      maxLeafSize < 5 ∧ AtDepth (ofBoxes (cubes (1 / 32))).nodes 0 0 ∧ 0 ≠ maxDepth ∧
      ∀ node ∈ (ofBoxes (cubes 1)).nodes.toList, node.span.length ≤ maxLeafSize :=
  ⟨by decide +kernel, by decide +kernel, by decide +kernel, by decide, .root, by decide,
    by decide +kernel⟩

end Bvh

end Candela
