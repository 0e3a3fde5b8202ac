import Candela.Bvh.InPlace
import Candela.Proofs.Bvh.Hierarchy

/-!
# Building in place builds the same hierarchy

The loop over tasks never looks for a place that is not there, and leaves the nodes and the order of
the hierarchy that `Tree.build` describes (`InPlace.build?_eq`). A partition in
place is followed through the array by the relation `Sweeps`, which a partition of lists satisfies.
A task is done when its tree has been laid out and its range of the order holds the items of that
tree (`run?_task`); this is by induction on how many levels the task has left, the two tasks that it
leaves behind having one less. What else is in the workspace does not matter to a task.
-/

namespace Candela.Bvh.InPlace

variable {before after : List Nat}

/-! ## Partitions -/

section
variable {p : Nat → Option Bool} {q : Item → Bool} {x y : Nat} {left segment right : List Item}
  {r : List Item × List Item}

/-- Exchanging an element with itself changes nothing. -/
theorem swap?_self (before after : List Nat) (x : Nat) :
    swap? (before ++ x :: after).toArray before.length before.length =
      some (before ++ x :: after).toArray := by
  simp [swap?]

/-- Exchanging two elements. -/
theorem swap?_append (before between after : List Nat) (x y : Nat) :
    swap? (before ++ x :: (between ++ y :: after)).toArray before.length
        (before.length + (between.length + 1)) =
      some (before ++ y :: (between ++ x :: after)).toArray := by
  simp [swap?]

/-- An element that goes left stays where it is. -/
theorem partition?_front (before after : List Nat) (count : Nat) (hx : p x = some true) :
    partition? p before.length (count + 1) (before ++ x :: after).toArray =
      partition? p (before.length + 1) count (before ++ x :: after).toArray := by
  simp [partition?, hx]

/-- The only element stays where it is. -/
theorem partition?_last (before after : List Nat) (hx : p x = some false) :
    partition? p before.length 1 (before ++ x :: after).toArray =
      some (before.length, (before ++ x :: after).toArray) := by
  simp [partition?, hx, swap?_self]

/-- An element that goes right changes places with the last one. -/
theorem partition?_back (before between after : List Nat) (hx : p x = some false) :
    partition? p before.length (between.length + 1 + 1)
        (before ++ x :: (between ++ y :: after)).toArray =
      partition? p before.length (between.length + 1)
        (before ++ y :: (between ++ x :: after)).toArray := by
  rw [partition?]
  simp [hx, swap?_append]

/-- A partition in place sorts its range from both ends and leaves the rest alone. -/
theorem partition?_of_sweeps (h : Sweeps q left segment right r) (before after : List Nat)
    (hp : ∀ i ∈ segment, p i.index = some (q i)) :
    partition? p (before.length + left.length) segment.length
        (before ++ ((left.reverse ++ (segment ++ right)).map (·.index) ++ after)).toArray =
      some (before.length + r.1.length,
        (before ++ ((r.1 ++ r.2).map (·.index) ++ after)).toArray) := by
  -- what has gone left is in front of the rest of the range
  have hfront (left rest : List Item) :
      before ++ ((left.reverse ++ rest).map (·.index) ++ after) =
        (before ++ left.reverse.map (·.index)) ++ (rest.map (·.index) ++ after) := by
    simp
  have hlength (left : List Item) :
      (before ++ left.reverse.map (·.index)).length = before.length + left.length := by
    simp
  induction h with
  | done => simp [partition?]
  | @front i left segment right r hi h ih =>
    have hi' := (hp i List.mem_cons_self).trans (congrArg some hi)
    have hrest := ih fun j hj => hp j (List.mem_cons_of_mem _ hj)
    rw [hfront, ← hlength, List.length_cons, List.cons_append, List.map_cons, List.cons_append,
      partition?_front _ _ _ hi', hlength]
    simpa [Nat.add_assoc] using hrest
  | @last i left right r hi h ih =>
    have hi' := (hp i List.mem_cons_self).trans (congrArg some hi)
    have hrest := ih fun j hj => nomatch hj
    rw [hfront, ← hlength, List.length_singleton, List.cons_append, List.map_cons,
      List.cons_append, partition?_last _ _ hi', hlength]
    simpa [partition?] using hrest
  | @back i j left segment right r hi h ih =>
    have hi' := (hp i List.mem_cons_self).trans (congrArg some hi)
    have hrest := ih fun k hk => hp k (by simp at hk ⊢; tauto)
    have hback : (i :: (segment ++ [j]) ++ right).map (·.index) ++ after =
        i.index :: (segment.map (·.index) ++ j.index :: (right.map (·.index) ++ after)) := by
      simp
    have hcount : (i :: (segment ++ [j])).length = (segment.map (·.index)).length + 1 + 1 := by
      simp
    rw [hfront, ← hlength, hback, hcount, partition?_back _ _ _ hi', hlength]
    simpa using hrest

end

/-! ## Splits -/

/-- A split that is found is one of the candidates. -/
theorem mem_of_cheapest? {l : List Split} {s : Split} (h : cheapest? l = some s) : s ∈ l := by
  unfold cheapest? at h
  revert h
  -- what is the best so far has been met
  refine List.foldlRecOn l _ (motive := fun best => best = some s → s ∈ l) nofun ?_
  intro best hbest a ha h
  split at h
  · cases h
    exact ha
  · exact hbest h

/-- There is a bin for every middle. -/
theorem binOf_lt (low extent middle : Float32) : binOf low extent middle < binCount :=
  Nat.lt_of_le_of_lt (Nat.min_le_right _ _) (by decide)

/-- Sorting into bins leaves the bins where they are. -/
theorem size_binsOf (items : List Item) (axis : Nat) (low extent : Float32) :
    (binsOf items axis low extent).size = binCount := by
  unfold binsOf
  refine List.foldlRecOn items _ (motive := fun bins : Array Bin => bins.size = binCount) (by simp) ?_
  intro bins hbins i _
  rw [Array.size_modify, hbins]

/-- A candidate is along one of three axes. -/
theorem axis_lt_of_mem_splits {items : List Item} {s : Split} (h : s ∈ splits items) :
    s.axis < 3 := by
  obtain ⟨axis, haxis, hs⟩ := List.mem_flatMap.1 h
  suffices heq : s.axis = axis from heq ▸ List.mem_range.1 haxis
  unfold splitsAlong at hs
  dsimp only at hs
  split at hs
  · cases hs
  · obtain ⟨i, hi, rfl⟩ := List.mem_mapIdx.1 hs
    rfl

variable {boxes : Array (Box Float32)} {limit depth : Nat} {items : List Item} {s : Split}

/-- A split that a task is done with is along one of three axes. -/
theorem axis_lt_of_split?_eq_some {box : Box Float32}
    (h : split? limit depth items box = some s) : s.axis < 3 := by
  unfold split? at h
  split at h
  · cases h
  · obtain ⟨hs, -⟩ := Option.filter_eq_some_iff.1 h
    exact axis_lt_of_mem_splits (mem_of_cheapest? hs)

/-- A tree is a leaf where there is no split, and two trees where there is one. -/
theorem build_eq_of_split? (limit depth : Nat) (items : List Item) :
    Tree.build (limit - depth) items =
      match split? limit depth items (Box.union (items.map (·.box))) with
      | none => .leaf (Box.union (items.map (·.box))) (items.map (·.index))
      | some s =>
        .branch (Box.union (items.map (·.box))) (Tree.build (limit - (depth + 1)) (divide s items).1)
          (Tree.build (limit - (depth + 1)) (divide s items).2) := by
  unfold split?
  by_cases hsmall : items.length ≤ maxLeafSize ∨ limit ≤ depth
  · rw [if_pos hsmall]
    cases hlevels : limit - depth with
    | zero => rfl
    | succ levels =>
      rw [Tree.build, if_pos (hsmall.resolve_right (by omega))]
  · rw [if_neg hsmall]
    obtain ⟨hlarge, hdepth⟩ := not_or.1 hsmall
    have hlevels : limit - depth = limit - (depth + 1) + 1 := by omega
    rw [hlevels, Tree.build, if_neg hlarge]
    cases hcheapest : cheapest? (splits items) with
    | none => rfl
    | some s =>
      by_cases hdear : s.isDear items (Box.union (items.map (·.box)))
      · simp [Option.filter, hdear]
      · simp [Option.filter, hdear]

/-- The coordinate of an axis is there for three axes. -/
theorem toList_getElem?_axis (v : Vec3 Float32) {axis : Nat} (h : axis < 3) :
    v.toList[axis]? = some (v.axis axis) := by
  match axis, h with
  | 0, _ => rfl
  | 1, _ => rfl
  | 2, _ => rfl

/-- Whether an item is before a split is known for items that have boxes. -/
theorem isBefore?_eq {i : Item} (hbox : boxes[i.index]? = some i.box) (hs : s.axis < 3) :
    isBefore? boxes s i.index = some (s.isBefore i) := by
  simp [isBefore?, Split.isBefore, hbox, toList_getElem?_axis _ hs]

/-- A range of the order is divided in place as a list of items is divided. -/
theorem partition?_eq (before after : List Nat) (hs : s.axis < 3)
    (hboxes : ∀ i ∈ items, boxes[i.index]? = some i.box) :
    partition? (isBefore? boxes s) before.length items.length
        (before ++ (items.map (·.index) ++ after)).toArray =
      some (before.length + (partition s.isBefore items).1.length,
        (before ++ ((s.order items).map (·.index) ++ after)).toArray) := by
  have hknown : ∀ i ∈ items, isBefore? boxes s i.index = some (s.isBefore i) :=
    fun i hi => isBefore?_eq (hboxes i hi) hs
  simpa [Split.order] using
    partition?_of_sweeps (partition_sweeps s.isBefore items) before after hknown

/-- The middle of a range is the border of a division. -/
theorem middle_eq (s : Split) (items : List Item) (first : Nat) :
    (if first + (partition s.isBefore items).1.length = first ∨
        first + (partition s.isBefore items).1.length = first + items.length then
      (first + (first + items.length)) / 2
    else first + (partition s.isBefore items).1.length) = first + s.border items := by
  unfold Split.border
  split
  · rw [if_pos (by omega)]
    omega
  · rw [if_neg (by omega)]

/-! ## Tasks -/

/-- The items of a range of the order. -/
theorem items?_eq (before after : List Nat) (hboxes : ∀ i ∈ items, boxes[i.index]? = some i.box) :
    items? boxes (before ++ (items.map (·.index) ++ after)).toArray before.length
      (before.length + items.length) = some items := by
  have hrange : before.length ≤ before.length + items.length ∧
      before.length + items.length ≤ (before ++ (items.map (·.index) ++ after)).toArray.size := by
    simp
  have hslice : ((before ++ (items.map (·.index) ++ after)).toArray.extract before.length
      (before.length + items.length)).toList = items.map (·.index) := by
    simp [List.extract_eq_take_drop]
  have hread : (items.map (·.index)).mapM (fun i => boxes[i]?.map fun b => (⟨i, b⟩ : Item)) =
      some items := by
    clear hrange hslice
    induction items with
    | nil => rfl
    | cons i items ih =>
      have hi := hboxes i List.mem_cons_self
      have hrest := ih fun j hj => hboxes j (List.mem_cons_of_mem _ hj)
      simp [hi, hrest]
  rw [items?, if_pos hrange, hslice, hread]

variable {nodes : Array Node} {slot : Nat} {tasks : List Task}

/-- Putting a node where there is one, nodes having been added. -/
theorem setNode?_push (a b node : Node) (hslot : slot < nodes.size) :
    setNode? ((nodes.push a).push b) slot node =
      some (((nodes.setIfInBounds slot node).push a).push b) := by
  have hroom : slot < ((nodes.push a).push b).size := by
    simp only [Array.size_push]
    omega
  rw [setNode?, if_pos hroom]
  congr 1
  refine Array.ext_getElem? fun i => ?_
  have h1 : nodes.size ≠ slot := Nat.ne_of_gt hslot
  have h2 : nodes.size + 1 ≠ slot := by omega
  simp only [Array.getElem?_setIfInBounds, Array.getElem?_push, Array.size_push,
    Array.size_setIfInBounds]
  by_cases hi : slot = i
  · subst hi
    simp [h1.symm, h2.symm, hslot]
    omega
  · simp [hi]

/-- A task that is done with at once. -/
theorem perform?_leaf (before after : List Nat) (hslot : slot < nodes.size)
    (hboxes : ∀ i ∈ items, boxes[i.index]? = some i.box)
    (hsplit : split? limit depth items (Box.union (items.map (·.box))) = none) :
    perform? limit boxes ⟨slot, before.length, before.length + items.length, depth⟩
        ⟨nodes, (before ++ (items.map (·.index) ++ after)).toArray, tasks⟩ =
      some ⟨nodes.setIfInBounds slot
          (.leaf (Box.union (items.map (·.box))) before.length items.length),
        (before ++ (items.map (·.index) ++ after)).toArray, tasks⟩ := by
  simp [perform?, items?_eq before after hboxes, hsplit, setNode?, hslot]

/-- A task that leaves two tasks behind, one for each side of a division. -/
theorem perform?_branch (before after : List Nat) (hslot : slot < nodes.size)
    (hboxes : ∀ i ∈ items, boxes[i.index]? = some i.box)
    (hsplit : split? limit depth items (Box.union (items.map (·.box))) = some s) :
    perform? limit boxes ⟨slot, before.length, before.length + items.length, depth⟩
        ⟨nodes, (before ++ (items.map (·.index) ++ after)).toArray, tasks⟩ =
      some ⟨((nodes.setIfInBounds slot (.branch (Box.union (items.map (·.box))) nodes.size)).push
            .empty).push .empty,
        (before ++ ((s.order items).map (·.index) ++ after)).toArray,
        ⟨nodes.size, before.length, before.length + s.border items, depth + 1⟩ ::
          ⟨nodes.size + 1, before.length + s.border items, before.length + items.length,
            depth + 1⟩ :: tasks⟩ := by
  have haxis : s.axis < 3 := axis_lt_of_split?_eq_some hsplit
  simp only [perform?, items?_eq before after hboxes, hsplit,
    partition?_eq before after haxis hboxes, middle_eq, setNode?_push _ _ _ hslot,
    Option.bind_eq_bind, Option.bind_some]

/-- The tasks are done one after another. -/
theorem run?_cons {task : Task} {order : Array Nat} {w : Workspace}
    (h : perform? limit boxes task ⟨nodes, order, tasks⟩ = some w) :
    run? limit boxes ⟨nodes, order, task :: tasks⟩ = run? limit boxes w := by
  rw [run?]
  split
  · next hnone => cases hnone
  · next htasks =>
    cases htasks
    split
    · next hnone => cases h.symm.trans hnone
    · next hnext =>
      cases h.symm.trans hnext
      rfl

/-- A task is done when its tree has been laid out and its range of the order holds the items of
that tree. -/
theorem run?_task (before after : List Nat) (hslot : slot < nodes.size)
    (hboxes : ∀ i ∈ items, boxes[i.index]? = some i.box) :
    run? limit boxes ⟨nodes, (before ++ (items.map (·.index) ++ after)).toArray,
        ⟨slot, before.length, before.length + items.length, depth⟩ :: tasks⟩ =
      run? limit boxes ⟨(Tree.build (limit - depth) items).place slot before.length nodes,
        (before ++ ((Tree.build (limit - depth) items).items ++ after)).toArray, tasks⟩ := by
  induction hlevels : limit - depth generalizing items depth nodes slot tasks before after with
  | zero =>
    have hsplit : split? limit depth items (Box.union (items.map (·.box))) = none :=
      if_pos (.inr (by omega))
    rw [run?_cons (perform?_leaf before after hslot hboxes hsplit)]
    simp [Tree.build, Tree.place, Tree.items]
  | succ levels ih =>
    rw [← hlevels, build_eq_of_split?]
    cases hsplit : split? limit depth items (Box.union (items.map (·.box))) with
    | none =>
      rw [run?_cons (perform?_leaf before after hslot hboxes hsplit)]
      simp [Tree.place, Tree.items]
    | some s =>
      rw [run?_cons (perform?_branch before after hslot hboxes hsplit)]
      have hbelow : limit - (depth + 1) = levels := by omega
      have hsides := divide_append s items
      have hborder := length_divide_fst s items
      have hperm := divide_perm s items
      dsimp only
      generalize divide s items = sides at hsides hborder hperm ⊢
      obtain ⟨l, r⟩ := sides
      dsimp only at hsides hborder hperm ⊢
      have hl : ∀ i ∈ l, boxes[i.index]? = some i.box := fun i hi =>
        hboxes i (hperm.subset (List.mem_append_left _ hi))
      have hr : ∀ i ∈ r, boxes[i.index]? = some i.box := fun i hi =>
        hboxes i (hperm.subset (List.mem_append_right _ hi))
      have hitems : (Tree.build levels l).items.length = l.length := by
        simpa using (Tree.built_build levels l).items_perm.length_eq
      rw [hbelow, Tree.place]
      generalize hN : ((nodes.setIfInBounds slot
        (.branch (Box.union (items.map (·.box))) nodes.size)).push Node.empty).push .empty = N
      have hsize : N.size = nodes.size + 2 := by simp [← hN]
      rw [← hsides, ← hborder, List.map_append, List.append_assoc]
      rw [ih before _ (by omega) hl hbelow]
      -- what the left tree holds is in front of the range of the right one
      have hfront : before.length + l.length =
          (before ++ (Tree.build levels l).items).length := by
        rw [List.length_append, hitems]
      have hlast : before.length + items.length =
          (before ++ (Tree.build levels l).items).length + r.length := by
        rw [← hfront, ← hperm.length_eq, List.length_append, Nat.add_assoc]
      have hroom : nodes.size + 1 <
          ((Tree.build levels l).place nodes.size before.length N).size := by
        rw [Tree.size_place]
        omega
      rw [hlast, hitems, hfront, ← List.append_assoc before, ih _ after hroom hr hbelow, Tree.items]
      simp only [List.append_assoc]

/-! ## Whole hierarchies -/

/-- Building in place comes to an end with the hierarchy of the boxes. -/
theorem build?_eq (limit : Nat) (boxes : List (Box Float32)) :
    build? limit boxes.toArray =
      some ((ofBoxesLimited limit boxes).nodes, (ofBoxesLimited limit boxes).items.toArray) := by
  by_cases hempty : boxes = []
  · subst hempty
    rfl
  · have hboxes : ∀ i ∈ itemsOf boxes, boxes.toArray[i.index]? = some i.box := by
      intro i hi
      simpa using getElem?_of_mem_itemsOf hi
    have hstart : (⟨#[.empty], Array.range boxes.length, [⟨0, 0, boxes.length, 0⟩]⟩ : Workspace) =
        ⟨#[.empty], ([] ++ ((itemsOf boxes).map Item.index ++ [])).toArray,
          [⟨0, ([] : List Nat).length, ([] : List Nat).length + (itemsOf boxes).length, 0⟩]⟩ := by
      rw [map_index_itemsOf, List.nil_append, List.append_nil, List.toArray_range]
      simp
    have hroot : 0 < #[Node.empty].size := Nat.one_pos
    rw [build?, if_neg (by simpa using hempty), ofBoxesLimited_eq hempty, List.size_toArray,
      hstart, run?_task [] [] hroot hboxes, run?]
    simp [Bvh.nodes, Bvh.items]

/-- Building in place finds everything it looks for, whatever the boxes are, and what it leaves is a
proper tree over them, whose places are words. -/
theorem build_proper (limit : Nat) (boxes : List (Box Float32)) (hboxes : boxes ≠ [])
    (hsize : boxes.length < 2 ^ 31) :
    build? limit boxes.toArray =
        some ((ofBoxesLimited limit boxes).nodes, (ofBoxesLimited limit boxes).items.toArray) ∧
      Proper limit boxes.length (ofBoxesLimited limit boxes).nodes
        (ofBoxesLimited limit boxes).items ∧
      Proper 62 boxes.length (ofBoxes boxes).nodes (ofBoxes boxes).items ∧
      (ofBoxesLimited limit boxes).nodes.size < wordValues ∧
      ∀ (items : List Item) (axis : Nat) (low extent middle : Float32),
        binOf low extent middle < (binsOf items axis low extent).size := by
  refine ⟨build?_eq limit boxes, proper_ofBoxesLimited hboxes, proper_ofBoxesLimited hboxes, ?_,
    fun items axis low extent middle => ?_⟩
  · refine Nat.lt_trans (proper_ofBoxesLimited hboxes).size_lt ?_
    unfold wordValues
    omega
  · rw [size_binsOf]
    exact binOf_lt low extent middle

/-- Boxes that are empty, that are no numbers, that have no end, and that agree. -/
def strangeBoxes : List (Box Float32) :=
  [.empty, ⟨.splat Single.nan, .splat Single.nan⟩, ⟨.splat (-Single.infinity), .splat Single.infinity⟩,
    ⟨.zero, .splat 1⟩, ⟨.zero, .splat 1⟩, .empty]

/-- Such boxes are put into a proper tree. -/
theorem build_proper_strangeBoxes :
    strangeBoxes ≠ [] ∧ strangeBoxes.length < 2 ^ 31 ∧
      Proper 3 6 (ofBoxesLimited 3 strangeBoxes).nodes (ofBoxesLimited 3 strangeBoxes).items ∧
      (build? 3 strangeBoxes.toArray).isSome := by
  have hboxes : strangeBoxes ≠ [] := nofun
  have hsize : strangeBoxes.length < 2 ^ 31 := by decide
  obtain ⟨hbuild, hproper, -⟩ := build_proper 3 strangeBoxes hboxes hsize
  exact ⟨hboxes, hsize, hproper, hbuild ▸ rfl⟩

end Candela.Bvh.InPlace
