import Candela.Bvh.Build
import Candela.Proofs.Bvh.Layout

/-!
# How a set of items is divided

A division puts every item on one of two sides, and neither side is left without items if there are
at least two (`divide_perm`, `divide_ne_nil`). Nothing is asked of the numbers that the division
looks at: the predicate of a partition may be any, and a partition that leaves a side empty is
replaced by one in the middle. `Tree.Built` is what this leaves of the builder: which trees it may
come to, whatever splits it finds to be worth while (`Tree.built_build`).
-/

namespace Candela.Bvh

variable {α : Type} {p : α → Bool} {x : α} {left right segment : List α} {r : List α × List α}

/-! ## Partitions -/

/-- Sorting a segment by a predicate from both ends, between elements that have been sorted: those
on the left are given in reverse. The first element of the segment goes left or changes places with
the last one and goes right. -/
inductive Sweeps (p : α → Bool) : (left segment right : List α) → List α × List α → Prop where
  /-- Everything has been sorted. -/
  | done {left right : List α} : Sweeps p left [] right (left.reverse, right)
  /-- The first element goes left. -/
  | front {x : α} {left segment right : List α} {r : List α × List α} (hx : p x = true)
      (h : Sweeps p (x :: left) segment right r) : Sweeps p left (x :: segment) right r
  /-- The only element goes right. -/
  | last {x : α} {left right : List α} {r : List α × List α} (hx : p x = false)
      (h : Sweeps p left [] (x :: right) r) : Sweeps p left [x] right r
  /-- The first element changes places with the last one. -/
  | back {x y : α} {left segment right : List α} {r : List α × List α} (hx : p x = false)
      (h : Sweeps p left (y :: segment) (x :: right) r) :
      Sweeps p left (x :: (segment ++ [y])) right r

/-- Sorting a segment loses no elements. -/
theorem Sweeps.perm (h : Sweeps p left segment right r) :
    (r.1 ++ r.2).Perm (left.reverse ++ (segment ++ right)) := by
  induction h with
  | done => rfl
  | front hx h ih => simpa using ih
  | last hx h ih => simpa using ih
  | @back x y left segment right r hx h ih =>
    refine ih.trans (List.Perm.append_left _ ?_)
    have hswap : (y :: (segment ++ x :: right)).Perm (x :: (y :: segment) ++ right) :=
      @List.perm_middle _ x (y :: segment) right
    refine hswap.trans ((List.Perm.cons x ?_).append_right right)
    exact (List.perm_append_singleton y segment).symm

/-- The elements that are still to come are those at the front and, in reverse, those at the
back. -/
theorem partitionFrom_sweeps (coming front back left right : List α) (hfront : coming <+: front)
    (hback : coming.reverse <+: back) :
    Sweeps p left (x :: coming) right
      (partitionFrom p x coming.length front back left right) := by
  induction hlen : coming.length generalizing x coming front back left right with
  | zero =>
    obtain rfl := List.eq_nil_of_length_eq_zero hlen
    unfold partitionFrom
    split
    · next hx => exact .front hx .done
    · next hx => exact .last (Bool.eq_false_iff.2 hx) .done
  | succ n ih =>
    unfold partitionFrom
    split
    · next hx =>
      obtain ⟨y, coming, rfl⟩ := List.exists_cons_of_length_eq_add_one hlen
      obtain ⟨rest, rfl⟩ := hfront
      have hback' : coming.reverse <+: back :=
        (List.prefix_append _ _).trans (by simpa using hback)
      exact .front hx (ih coming _ _ _ _ (List.prefix_append _ _) hback' (by simpa using hlen))
    · next hx =>
      obtain ⟨coming, y, rfl⟩ : ∃ init y, coming = init ++ [y] := by
        rcases List.eq_nil_or_concat coming with rfl | ⟨init, y, rfl⟩
        · cases hlen
        · exact ⟨init, y, List.concat_eq_append⟩
      obtain ⟨rest, rfl⟩ : ∃ rest, back = y :: (coming.reverse ++ rest) := by
        obtain ⟨rest, rfl⟩ := hback
        exact ⟨rest, by simp⟩
      have hfront' : coming <+: front := (List.prefix_append _ _).trans hfront
      exact .back (Bool.eq_false_iff.2 hx)
        (ih coming _ _ _ _ hfront' (List.prefix_append _ _) (by simpa using hlen))

/-- A partition sorts its list from both ends. -/
theorem partition_sweeps (p : α → Bool) (l : List α) : Sweeps p [] l [] (partition p l) := by
  cases l with
  | nil => exact .done
  | cons x rest =>
    exact partitionFrom_sweeps rest rest rest.reverse [] [] (List.prefix_refl _)
      (List.prefix_refl _)

/-! ## Divisions -/

variable {s : Split} {items : List Item}

/-- Whether an item goes left. -/
def Split.isBefore (s : Split) (i : Item) : Bool := i.box.centroid.axis s.axis < s.position

/-- The items in the order in which they are partitioned. -/
def Split.order (s : Split) (items : List Item) : List Item :=
  (partition s.isBefore items).1 ++ (partition s.isBefore items).2

/-- Where the order of a partition is divided: in the middle if one side would be empty. -/
def Split.border (s : Split) (items : List Item) : Nat :=
  if (partition s.isBefore items).1.length = 0 ∨
      (partition s.isBefore items).1.length = items.length then items.length / 2
  else (partition s.isBefore items).1.length

/-- Partitioning loses no items. -/
theorem Split.order_perm (s : Split) (items : List Item) : (s.order items).Perm items := by
  simpa [Split.order] using (partition_sweeps s.isBefore items).perm

/-- A division cuts the order of the partition. -/
theorem divide_eq (s : Split) (items : List Item) :
    divide s items = (s.order items).splitAt (s.border items) := by
  have hlength := (s.order_perm items).length_eq
  rw [Split.order, List.length_append] at hlength
  have hdivide : divide s items =
      if (partition s.isBefore items).1.isEmpty || (partition s.isBefore items).2.isEmpty then
        (s.order items).splitAt (items.length / 2)
      else partition s.isBefore items := rfl
  have hempty : ((partition s.isBefore items).1.isEmpty ||
      (partition s.isBefore items).2.isEmpty) = true ↔
        (partition s.isBefore items).1.length = 0 ∨
          (partition s.isBefore items).1.length = items.length := by
    rw [Bool.or_eq_true, List.isEmpty_iff_length_eq_zero, List.isEmpty_iff_length_eq_zero]
    omega
  rw [hdivide, Split.border]
  by_cases h : (partition s.isBefore items).1.length = 0 ∨
      (partition s.isBefore items).1.length = items.length
  · rw [if_pos (hempty.2 h), if_pos h]
  · rw [if_neg (mt hempty.1 h), if_neg h, Split.order, List.splitAt_eq, List.take_left,
      List.drop_left]

/-- The two sides of a division make up the order of the partition. -/
theorem divide_append (s : Split) (items : List Item) :
    (divide s items).1 ++ (divide s items).2 = s.order items := by
  rw [divide_eq, List.splitAt_eq, List.take_append_drop]

/-- Every item is on one of the two sides. -/
theorem divide_perm (s : Split) (items : List Item) :
    ((divide s items).1 ++ (divide s items).2).Perm items :=
  divide_append s items ▸ s.order_perm items

/-- The border lies within the items. -/
theorem Split.border_le (s : Split) (items : List Item) : s.border items ≤ items.length := by
  have hlength := (s.order_perm items).length_eq
  rw [Split.order, List.length_append] at hlength
  unfold Split.border
  split <;> omega

/-- The left side ends at the border. -/
theorem length_divide_fst (s : Split) (items : List Item) :
    (divide s items).1.length = s.border items := by
  rw [divide_eq, List.splitAt_eq, List.length_take, (s.order_perm items).length_eq]
  exact Nat.min_eq_left (s.border_le items)

/-- Neither side is empty if there are two items. -/
theorem divide_ne_nil (h : 2 ≤ items.length) :
    (divide s items).1 ≠ [] ∧ (divide s items).2 ≠ [] := by
  have hleft := length_divide_fst s items
  have hlength := (divide_perm s items).length_eq
  rw [List.length_append] at hlength
  have hle := s.border_le items
  have hborder : s.border items ≠ 0 ∧ s.border items ≠ items.length := by
    unfold Split.border
    split <;> omega
  rw [← List.length_pos_iff, ← List.length_pos_iff]
  omega

/-! ## Trees -/

namespace Tree

/-- A tree that may be built of some items with so many levels left: a leaf, or two trees of the
sides of a division, neither of which is empty. -/
inductive Built : (levels : Nat) → List Item → Tree → Prop where
  /-- The items are kept together. -/
  | leaf {levels : Nat} {items : List Item} :
      Built levels items (.leaf (Box.union (items.map (·.box))) (items.map (·.index)))
  /-- The items are divided. -/
  | branch {levels : Nat} {items left right : List Item} {l r : Tree}
      (hperm : (left ++ right).Perm items) (hleft : left ≠ []) (hright : right ≠ [])
      (hl : Built levels left l) (hr : Built levels right r) :
      Built (levels + 1) items (.branch (Box.union (items.map (·.box))) l r)

/-- The builder builds nothing else. -/
theorem built_build (levels : Nat) (items : List Item) : Built levels items (build levels items) := by
  induction levels generalizing items with
  | zero => exact .leaf
  | succ levels ih =>
    unfold build
    dsimp only
    split
    · exact .leaf
    · next hlarge =>
      split
      · exact .leaf
      · next s _ =>
        split
        · exact .leaf
        · have htwo : 2 ≤ items.length := by
            unfold maxLeafSize at hlarge
            omega
          obtain ⟨hleft, hright⟩ := divide_ne_nil (s := s) htwo
          exact .branch (divide_perm s items) hleft hright (ih _) (ih _)

variable {levels : Nat} {t : Tree}

/-- A tree holds the items that it is built of. -/
theorem Built.items_perm (h : Built levels items t) : t.items.Perm (items.map (·.index)) := by
  induction h with
  | leaf => rfl
  | branch hperm _ _ _ _ ihl ihr =>
    refine (ihl.append ihr).trans ?_
    rw [← List.map_append]
    exact hperm.map _

/-- A tree has no more levels than there were. -/
theorem Built.depth_le (h : Built levels items t) : t.depth ≤ levels := by
  induction h with
  | leaf => exact Nat.zero_le _
  | branch _ _ _ _ _ ihl ihr => exact Nat.succ_le_succ (Nat.max_le.2 ⟨ihl, ihr⟩)

/-- A tree that is built of some items has no empty leaf. -/
theorem Built.full (h : Built levels items t) (hitems : items ≠ []) : t.Full := by
  induction h with
  | leaf => simpa [Full] using hitems
  | branch _ hleft hright _ _ ihl ihr => exact ⟨ihl hleft, ihr hright⟩

end Tree

end Candela.Bvh
