import Mathlib.Data.List.Pairwise
import Mathlib.Logic.ExistsUnique
import Candela.Capacity
import Candela.Proofs.Bvh.Division

/-!
# Hierarchies are proper trees over their items

`Proper` says what a laid-out hierarchy is: every item stands in one place of one leaf, every node
but the root is the child of one node, which stands before it, and no node lies too deep. Any tree
whose leaves hold something is laid out properly (`Tree.proper`), and the builder only builds such
trees (`proper_ofBoxesLimited`), whatever the boxes are: none of this depends on how the work of a
split is estimated.
-/

namespace Candela.Bvh

variable {t : Tree} {nodes : Array Node} {i child parent depth : Nat} {node : Node}

/-! ## Laid-out hierarchies -/

/-- A node is a child of another one. -/
def IsChild (nodes : Array Node) (child parent : Nat) : Prop :=
  ∃ box left, nodes[parent]? = some (.branch box left) ∧ (child = left ∨ child = left + 1)

/-- A place among the items belongs to a leaf. -/
def Holds (nodes : Array Node) (leaf place : Nat) : Prop :=
  ∃ box first count, nodes[leaf]? = some (.leaf box first count) ∧
    first ≤ place ∧ place < first + count

/-- How many steps a node is away from the root. -/
inductive AtDepth (nodes : Array Node) : (i depth : Nat) → Prop where
  | root : AtDepth nodes 0 0
  | child {child parent depth : Nat} (hparent : AtDepth nodes parent depth)
      (hchild : IsChild nodes child parent) : AtDepth nodes child (depth + 1)

/-- Some nodes are those of a binary tree over some items, the root being the first one. The items
are known by the numbers below `count`, and no node is more than `levels` steps away from the
root. -/
structure Proper (levels count : Nat) (nodes : Array Node) (items : List Nat) : Prop where
  /-- Every item stands in one place. -/
  items_perm : items.Perm (List.range count)
  /-- No place has been left to be filled, and every leaf holds something. -/
  filled : ∀ i < nodes.size, ∃ node, nodes[i]? = some node ∧ node.Filled
  /-- Leaves hold places of items. -/
  place_lt : ∀ leaf place, Holds nodes leaf place → place < count
  /-- Every place of an item belongs to one leaf. -/
  leaf_unique : ∀ place < count, ∃! leaf, Holds nodes leaf place
  /-- Children stand behind their parents. -/
  child_lt : ∀ child parent, IsChild nodes child parent → parent < child ∧ child < nodes.size
  /-- Every node but the root is the child of one node. -/
  parent_unique : ∀ child, 0 < child → child < nodes.size → ∃! parent, IsChild nodes child parent
  /-- There are twice as many nodes as leaves, less one. -/
  size_add_one : nodes.size + 1 = 2 * nodes.countP Node.isLeaf
  /-- There are less than twice as many nodes as items. -/
  size_lt : nodes.size < 2 * count
  /-- Every node is so many steps away from the root, and not too many. -/
  depth_le : ∀ i < nodes.size, ∃ depth ≤ levels, ∀ d, AtDepth nodes i d ↔ d = depth

namespace Tree

/-- A tree whose leaves hold something has no more leaves than items. -/
theorem Full.leafCount_le (h : t.Full) : t.leafCount ≤ t.items.length := by
  induction t with
  | leaf => exact List.length_pos_iff.2 h
  | branch b l r ihl ihr =>
    rw [leafCount, items, List.length_append]
    exact Nat.add_le_add (ihl h.1) (ihr h.2)

/-- The nodes of a tree that is laid out without anything else. -/
def layout (t : Tree) : Array Node := t.place 0 0 #[.empty]

/-- A tree has two nodes for each of its branches, and one more. -/
theorem size_layout (t : Tree) : t.layout.size = 2 * t.branchCount + 1 := by
  rw [layout, size_place]
  exact Nat.add_comm _ _

/-- What stands at some place is listed there, and nothing else is listed. -/
theorem getElem?_layout_iff : t.layout[i]? = some node ↔ (i, node) ∈ t.placed 0 0 1 := by
  have hwritten : ∀ e ∈ t.placed 0 0 1, t.layout[e.1]? = some e.2 := by
    intro e he
    show (t.place 0 0 #[.empty])[e.1]? = some e.2
    exact getElem?_place_of_mem Nat.one_pos he
  refine ⟨fun h => ?_, hwritten (i, node)⟩
  have hi : i < 2 * t.branchCount + 1 := by
    rw [← size_layout]
    exact (Array.getElem?_eq_some_iff.1 h).1
  have hplace : i ∈ 0 :: List.range' 1 (2 * t.branchCount) := by
    rw [List.mem_cons, List.mem_range'_1]
    omega
  obtain ⟨e, he, rfl⟩ := List.mem_map.1 ((map_placed t 0 0 1).symm.subset hplace)
  rw [hwritten e he] at h
  cases h
  exact he

/-- The nodes are listed with their places, in some order. -/
theorem map_snd_placed_perm (t : Tree) : ((t.placed 0 0 1).map Prod.snd).Perm t.layout.toList := by
  have hplaced : (t.placed 0 0 1).Nodup := by
    refine List.Nodup.of_map Prod.fst ((map_placed t 0 0 1).nodup_iff.2 ?_)
    refine List.nodup_cons.2 ⟨?_, List.nodup_range'⟩
    rw [List.mem_range'_1]
    omega
  have hindexed : (t.layout.toList.zipIdx.map Prod.swap).Nodup := by
    refine List.Nodup.of_map Prod.fst ?_
    rw [List.map_map]
    show (t.layout.toList.zipIdx.map Prod.snd).Nodup
    rw [List.zipIdx_map_snd]
    exact List.nodup_range'
  have hperm : (t.placed 0 0 1).Perm (t.layout.toList.zipIdx.map Prod.swap) := by
    refine (List.perm_ext_iff_of_nodup hplaced hindexed).2 fun e => ?_
    obtain ⟨i, node⟩ := e
    rw [← getElem?_layout_iff]
    simp [List.mem_zipIdx_iff_getElem?]
  have hmap := hperm.map Prod.snd
  rw [List.map_map] at hmap
  have hfst : t.layout.toList.zipIdx.map (Prod.snd ∘ Prod.swap) = t.layout.toList := by
    show t.layout.toList.zipIdx.map Prod.fst = t.layout.toList
    exact List.zipIdx_map_fst _ _
  rwa [hfst] at hmap

/-- What is given to one node only, by a rule that looks at nodes, is given to it by one place. -/
theorem existsUnique_layout {f : Node → List Nat} {x : Nat}
    (hnodup : ((t.placed 0 0 1).flatMap fun e => f e.2).Nodup)
    (hx : x ∈ (t.placed 0 0 1).flatMap fun e => f e.2) :
    ∃! i : Nat, ∃ node, t.layout[i]? = some node ∧ x ∈ f node := by
  obtain ⟨e, he, hmem⟩ := List.mem_flatMap.1 hx
  refine ⟨e.1, ⟨e.2, getElem?_layout_iff.2 he, hmem⟩, ?_⟩
  rintro i ⟨node, hnode, hmem'⟩
  by_contra hne
  have hsymm : Std.Symm (Function.onFun List.Disjoint fun e : Nat × Node => f e.2) :=
    ⟨fun _ _ h _ hx hy => h hy hx⟩
  have hother : (i, node) ≠ e := fun h => hne (congrArg Prod.fst h)
  exact (List.nodup_flatMap.1 hnodup).2.forall (getElem?_layout_iff.1 hnode) he hother hmem' hmem

end Tree

/-! ## Parents and leaves -/

/-- The children of a node are those that the node names. -/
theorem isChild_iff : IsChild nodes child parent ↔
    ∃ node, nodes[parent]? = some node ∧ child ∈ node.children := by
  constructor
  · rintro ⟨box, left, hnode, hchild⟩
    exact ⟨_, hnode, by simpa [Node.children] using hchild⟩
  · rintro ⟨node, hnode, hchild⟩
    cases node with
    | branch box left => exact ⟨box, left, hnode, by simpa [Node.children] using hchild⟩
    | empty => cases hchild
    | leaf => cases hchild

/-- The places of a leaf are those that its node names. -/
theorem holds_iff {leaf place : Nat} : Holds nodes leaf place ↔
    ∃ node, nodes[leaf]? = some node ∧ place ∈ node.span := by
  constructor
  · rintro ⟨box, first, count, hnode, hplace⟩
    exact ⟨_, hnode, by simpa [Node.span, List.mem_range'_1] using hplace⟩
  · rintro ⟨node, hnode, hplace⟩
    cases node with
    | leaf box first count =>
      exact ⟨box, first, count, hnode, by simpa [Node.span, List.mem_range'_1] using hplace⟩
    | empty => cases hplace
    | branch => cases hplace

namespace Tree

/-- Children stand behind their parents. -/
theorem lt_of_isChild (h : IsChild t.layout child parent) : parent < child := by
  obtain ⟨node, hnode, hchild⟩ := isChild_iff.1 h
  exact lt_of_mem_children Nat.one_pos (getElem?_layout_iff.1 hnode) hchild

/-- The children are all nodes but the root. -/
theorem isChild_lt_size (h : IsChild t.layout child parent) : child < t.layout.size := by
  obtain ⟨node, hnode, hchild⟩ := isChild_iff.1 h
  have hmem := (flatMap_children_placed t 0 0 1).subset
    (List.mem_flatMap.2 ⟨_, getElem?_layout_iff.1 hnode, hchild⟩)
  rw [List.mem_range'_1] at hmem
  rw [size_layout]
  omega

/-- Every node but the root is the child of one node. -/
theorem existsUnique_parent (hpos : 0 < child) (hlt : child < t.layout.size) :
    ∃! parent, IsChild t.layout child parent := by
  have hplaces := flatMap_children_placed t 0 0 1
  have hmem : child ∈ List.range' 1 (2 * t.branchCount) := by
    rw [size_layout] at hlt
    rw [List.mem_range'_1]
    omega
  simpa only [isChild_iff] using
    existsUnique_layout (hplaces.nodup_iff.2 List.nodup_range') (hplaces.mem_iff.2 hmem)

/-- Every place of an item belongs to one leaf. -/
theorem existsUnique_leaf {place : Nat} (h : place < t.items.length) :
    ∃! leaf, Holds t.layout leaf place := by
  have hplaces := flatMap_span_placed t 0 0 1
  have hmem : place ∈ List.range' 0 t.items.length := by
    rw [List.mem_range'_1]
    omega
  simpa only [holds_iff] using
    existsUnique_layout (hplaces ▸ List.nodup_range') (hplaces ▸ hmem)

/-- Leaves hold places of items. -/
theorem place_lt_of_holds {leaf place : Nat} (h : Holds t.layout leaf place) :
    place < t.items.length := by
  obtain ⟨node, hnode, hplace⟩ := holds_iff.1 h
  have hmem : place ∈ (t.placed 0 0 1).flatMap (·.2.span) :=
    List.mem_flatMap.2 ⟨_, getElem?_layout_iff.1 hnode, hplace⟩
  rw [flatMap_span_placed, List.mem_range'_1] at hmem
  omega

/-! ## Depth -/

/-- So many steps away from the root there is a tree with so many levels less. -/
theorem exists_laid_of_atDepth (h : AtDepth t.layout i depth) :
    ∃ first s, Laid t.layout i first s ∧ depth + s.depth ≤ t.depth := by
  induction h with
  | root =>
    exact ⟨0, t, laid_of_placed t 0 0 1 fun _ he => getElem?_layout_iff.2 he, by omega⟩
  | @child child parent depth _ hchild ih =>
    obtain ⟨first, s, hlaid, hdepth⟩ := ih
    obtain ⟨box, left, hnode, hchild⟩ := hchild
    cases hlaid with
    | leaf hleaf => cases hnode.symm.trans hleaf
    | @branch _ _ _ b l r hbranch hl hr =>
      cases hnode.symm.trans hbranch
      rw [Tree.depth] at hdepth
      rcases hchild with rfl | rfl
      · exact ⟨_, _, hl, by omega⟩
      · exact ⟨_, _, hr, by omega⟩

/-- Every node is reached from the root. -/
theorem exists_atDepth (h : i < t.layout.size) : ∃ depth, AtDepth t.layout i depth := by
  induction i using Nat.strongRecOn with
  | ind i ih =>
    rcases Nat.eq_zero_or_pos i with rfl | hpos
    · exact ⟨0, .root⟩
    · obtain ⟨parent, hparent, -⟩ := existsUnique_parent hpos h
      have hlt := lt_of_isChild hparent
      obtain ⟨depth, hdepth⟩ := ih parent hlt (by omega)
      exact ⟨depth + 1, hdepth.child hparent⟩

/-- There is one way from the root to a node. -/
theorem atDepth_unique {d d' : Nat} (h : AtDepth t.layout i d) (h' : AtDepth t.layout i d') :
    d = d' := by
  induction h generalizing d' with
  | root =>
    cases h' with
    | root => rfl
    | child _ hchild => exact absurd (lt_of_isChild hchild) (Nat.not_lt_zero _)
  | @child child parent depth _ hchild ih =>
    cases h' with
    | root => exact absurd (lt_of_isChild hchild) (Nat.not_lt_zero _)
    | @child _ parent' depth' hparent' hchild' =>
      have hpos : 0 < child := Nat.lt_of_le_of_lt (Nat.zero_le _) (lt_of_isChild hchild)
      obtain rfl := (existsUnique_parent hpos (isChild_lt_size hchild)).unique hchild hchild'
      rw [ih hparent']

/-! ## Whole trees -/

/-- A tree over the numbers below a count is laid out properly if every leaf holds something. -/
theorem proper {levels count : Nat} (hfull : t.Full) (hitems : t.items.Perm (List.range count))
    (hdepth : t.depth ≤ levels) : Proper levels count t.layout t.items := by
  have hlength : t.items.length = count := by rw [hitems.length_eq, List.length_range]
  have hleaves : t.layout.countP Node.isLeaf = t.leafCount := by
    rw [← Array.countP_toList, ← (map_snd_placed_perm t).countP_eq, List.countP_map,
      ← countP_isLeaf_placed t 0 0 1]
    rfl
  refine
    { items_perm := hitems
      filled := fun i hi => ?_
      place_lt := fun leaf place h => hlength ▸ place_lt_of_holds h
      leaf_unique := fun place h => existsUnique_leaf (hlength.symm ▸ h)
      child_lt := fun child parent h => ⟨lt_of_isChild h, isChild_lt_size h⟩
      parent_unique := fun child => existsUnique_parent
      size_add_one := ?_
      size_lt := ?_
      depth_le := fun i hi => ?_ }
  · have hnode : t.layout[i]? = some t.layout[i] := Array.getElem?_eq_getElem hi
    exact ⟨_, hnode, hfull.filled (getElem?_layout_iff.1 hnode)⟩
  · rw [hleaves, size_layout, leafCount_eq]
    omega
  · have hle := hfull.leafCount_le
    rw [leafCount_eq] at hle
    rw [size_layout]
    omega
  · obtain ⟨depth, hreached⟩ := exists_atDepth hi
    obtain ⟨_, s, -, hle⟩ := exists_laid_of_atDepth hreached
    refine ⟨depth, by omega, fun d => ⟨fun h => atDepth_unique h hreached, ?_⟩⟩
    rintro rfl
    exact hreached

end Tree

/-! ## Built hierarchies -/

/-- The tree of some items that are known by their positions is laid out properly. -/
theorem Tree.Built.proper {levels : Nat} {items : List Item} (h : Tree.Built levels items t)
    (hitems : items ≠ []) (hindices : items.map (·.index) = List.range items.length) :
    Proper levels items.length t.layout t.items :=
  Tree.proper (h.full hitems) (hindices ▸ h.items_perm) h.depth_le

/-- The items of some boxes. -/
def itemsOf (boxes : List (Box Float32)) : List Item := boxes.mapIdx fun i b => ⟨i, b⟩

@[simp] theorem length_itemsOf (boxes : List (Box Float32)) :
    (itemsOf boxes).length = boxes.length := by
  simp [itemsOf]

/-- Items are known by their positions. -/
theorem map_index_itemsOf (boxes : List (Box Float32)) :
    (itemsOf boxes).map (·.index) = List.range boxes.length := by
  refine List.ext_getElem (by simp) fun i h₁ h₂ => ?_
  simp [itemsOf]

/-- An item has the box at its position. -/
theorem getElem?_of_mem_itemsOf {boxes : List (Box Float32)} {item : Item}
    (h : item ∈ itemsOf boxes) : boxes[item.index]? = some item.box := by
  obtain ⟨i, hi, rfl⟩ := List.mem_mapIdx.1 h
  exact List.getElem?_eq_getElem hi

/-- The hierarchy of some boxes is a tree that is built of them. -/
theorem ofBoxesLimited_eq {levels : Nat} {boxes : List (Box Float32)} (h : boxes ≠ []) :
    ofBoxesLimited levels boxes = ⟨some (Tree.build levels (itemsOf boxes))⟩ := by
  cases boxes with
  | nil => exact absurd rfl h
  | cons b rest => simp [ofBoxesLimited, itemsOf, List.mapIdx_cons]

/-- A hierarchy of boxes is a proper tree over them. -/
theorem proper_ofBoxesLimited {levels : Nat} {boxes : List (Box Float32)} (h : boxes ≠ []) :
    Proper levels boxes.length (ofBoxesLimited levels boxes).nodes
      (ofBoxesLimited levels boxes).items := by
  have hitems : itemsOf boxes ≠ [] := by
    rw [← List.length_pos_iff, length_itemsOf]
    exact List.length_pos_iff.2 h
  have hproper := (Tree.built_build levels (itemsOf boxes)).proper hitems
    (by rw [map_index_itemsOf, length_itemsOf])
  rw [length_itemsOf] at hproper
  rw [ofBoxesLimited_eq h]
  exact hproper

/-- What a hierarchy of boxes has in its leaves. -/
theorem items_ofBoxes_perm (boxes : List (Box Float32)) :
    (ofBoxes boxes).items.Perm (List.range boxes.length) := by
  rcases eq_or_ne boxes [] with rfl | hboxes
  · exact .refl _
  · have hproper : Proper maxDepth boxes.length (ofBoxes boxes).nodes (ofBoxes boxes).items :=
      proper_ofBoxesLimited hboxes
    exact hproper.items_perm

theorem mem_items_ofBoxes {boxes : List (Box Float32)} {k : Nat} :
    k ∈ (ofBoxes boxes).items ↔ k < boxes.length := by
  rw [(items_ofBoxes_perm boxes).mem_iff, List.mem_range]

@[simp] theorem length_items_ofBoxes (boxes : List (Box Float32)) :
    (ofBoxes boxes).items.length = boxes.length := by
  rw [(items_ofBoxes_perm boxes).length_eq, List.length_range]

end Candela.Bvh
