import Mathlib.Data.List.Perm.Subperm
import Candela.Proofs.Bvh.InPlace
import Candela.Proofs.Bvh.Parts

/-!
# The trees below the nodes of a hierarchy

Below every node of a built hierarchy stands the tree that the builder makes of some of the items,
as many levels less high as the node is steps away from the root (`Tree.exists_stands`). This is so
for the root, and stays so from a node to its children, since each side of a division is made of the
items that are divided (`Tree.Stands.of_isChild`). What a node says can therefore be told from these
items alone: its box (`Tree.Stands.box`), what is held below it (`Tree.Stands.below`) and whether it
is a leaf (`Tree.Stands.isLeaf_iff`).
-/

namespace Candela.Bvh

variable {nodes : Array Node} {slot first place i child parent depth limit : Nat} {t : Tree}
  {node : Node} {boxes : List (Box Float32)} {items part : List Item}

/-! ## Laid-out trees -/

/-- The root of a tree has the box of the tree. -/
theorem Laid.box (hlaid : Laid nodes slot first t) (hnode : nodes[slot]? = some node) :
    node.box = t.box := by
  cases hlaid with
  | leaf hleaf =>
    cases hnode.symm.trans hleaf
    rfl
  | branch hbranch =>
    cases hnode.symm.trans hbranch
    rfl

/-- What is held below the root of a tree are the places of its items. -/
theorem Laid.holdsBelow_iff (hlaid : Laid nodes slot first t) :
    HoldsBelow nodes slot place ↔ first ≤ place ∧ place < first + t.items.length := by
  induction hlaid with
  | leaf hnode =>
    constructor
    · rintro ⟨leaf, hreach, _, _, _, hleaf, hplace⟩
      obtain rfl := hreach.eq_of_not_branch hnode nofun
      cases hnode.symm.trans hleaf
      exact hplace
    · intro hplace
      exact ⟨_, .refl, _, _, _, hnode, hplace⟩
  | @branch slot first left b l r hnode _ _ ihl ihr =>
    rw [Tree.items, List.length_append]
    constructor
    · rintro ⟨leaf, hreach, hholds⟩
      rcases hreach.cases_branch hnode with rfl | hleft | hright
      · obtain ⟨_, _, _, hleaf, -⟩ := hholds
        cases hnode.symm.trans hleaf
      · have hplace := ihl.1 ⟨leaf, hleft, hholds⟩
        omega
      · have hplace := ihr.1 ⟨leaf, hright, hholds⟩
        omega
    · rintro ⟨hfirst, hlast⟩
      rcases Nat.lt_or_ge place (first + l.items.length) with hleft | hright
      · obtain ⟨leaf, hreach, hholds⟩ := ihl.2 ⟨hfirst, hleft⟩
        exact ⟨leaf, reaches_of_isChild ⟨b, left, hnode, .inl rfl⟩ hreach, hholds⟩
      · obtain ⟨leaf, hreach, hholds⟩ := ihr.2 ⟨hright, by omega⟩
        exact ⟨leaf, reaches_of_isChild ⟨b, left, hnode, .inr rfl⟩ hreach, hholds⟩

/-- Some items are what is held below a node; they are known by the positions of their boxes. -/
structure Below (boxes : List (Box Float32)) (nodes : Array Node) (items : List Nat) (i : Nat)
    (part : List Item) : Prop where
  nodup : (part.map (·.index)).Nodup
  box : ∀ item ∈ part, boxes[item.index]? = some item.box
  mem_iff : ∀ k, k ∈ part.map (·.index) ↔
    ∃ place, HoldsBelow nodes i place ∧ items[place]? = some k

namespace Tree

/-- A tree that is built of some items has the least box around theirs. -/
theorem Built.box {levels : Nat} (h : Built levels items t) :
    t.box = Box.union (items.map (·.box)) := by
  cases h <;> rfl

/-! ## Trees below nodes -/

/-- Below a node, so many steps away from the root of a tree of some items, stands the tree of part
of the items, and what it holds stands from some place on. -/
structure Stands (limit : Nat) (items : List Item) (i depth first : Nat) (part : List Item) :
    Prop where
  laid : Laid (build limit items).layout i first (build (limit - depth) part)
  subperm : part.Subperm items
  item : ∀ j k, (build (limit - depth) part).items[j]? = some k →
    (build limit items).items[first + j]? = some k

/-- All items are below the root. -/
theorem stands_root (limit : Nat) (items : List Item) : Stands limit items 0 0 0 items where
  laid := laid_layout _
  subperm := .refl _
  item j k hk := by rwa [Nat.zero_add]

/-- A step: below a child are part of the items that are below its parent. -/
theorem Stands.of_isChild (h : Stands limit items parent depth first part)
    (hchild : IsChild (build limit items).layout child parent) :
    ∃ first' part', Stands limit items child (depth + 1) first' part' ∧ part'.Subperm part := by
  obtain ⟨b, left, hnode, hchild⟩ := hchild
  have hlaid := h.laid
  have hitem := h.item
  rw [InPlace.build_eq_of_split? limit depth part] at hlaid hitem
  cases hsplit : InPlace.split? limit depth part (Box.union (part.map (·.box))) with
  | none =>
    rw [hsplit] at hlaid
    cases hlaid with
    | leaf hleaf => cases hnode.symm.trans hleaf
  | some s =>
    rw [hsplit] at hlaid hitem
    have hsides := (divide_perm s part).subperm
    cases hlaid with
    | branch hbranch hl hr =>
      cases hnode.symm.trans hbranch
      rcases hchild with rfl | rfl
      · have hleft := (List.sublist_append_left _ _).subperm.trans hsides
        refine ⟨_, _, ⟨hl, hleft.trans h.subperm, ?_⟩, hleft⟩
        exact forall_items_left
          (P := fun place k => (build limit items).items[place]? = some k) hitem
      · have hright := (List.sublist_append_right _ _).subperm.trans hsides
        refine ⟨_, _, ⟨hr, hright.trans h.subperm, ?_⟩, hright⟩
        exact forall_items_right
          (P := fun place k => (build limit items).items[place]? = some k) hitem

/-- A run: below every node stands the tree of part of the items. -/
theorem exists_stands (hdepth : AtDepth (build limit items).layout i depth) :
    ∃ first part, Stands limit items i depth first part := by
  induction hdepth with
  | root => exact ⟨0, items, stands_root limit items⟩
  | child _ hchild ih =>
    obtain ⟨first, part, hstands⟩ := ih
    obtain ⟨first', part', hstands', -⟩ := hstands.of_isChild hchild
    exact ⟨first', part', hstands'⟩

/-! ## What nodes say -/

/-- A node has the least box around those of the items below it. -/
theorem Stands.box (h : Stands limit items i depth first part)
    (hnode : (build limit items).layout[i]? = some node) :
    node.box = Box.union (part.map (·.box)) :=
  (h.laid.box hnode).trans (built_build _ _).box

/-- A node is a leaf if the items below it have no split. -/
theorem Stands.isLeaf_iff (h : Stands limit items i depth first part)
    (hnode : (build limit items).layout[i]? = some node) :
    node.isLeaf = true ↔ InPlace.split? limit depth part (Box.union (part.map (·.box))) = none := by
  have hlaid := h.laid
  rw [InPlace.build_eq_of_split? limit depth part] at hlaid
  cases hsplit : InPlace.split? limit depth part (Box.union (part.map (·.box))) with
  | none =>
    rw [hsplit] at hlaid
    cases hlaid with
    | leaf hleaf =>
      cases hnode.symm.trans hleaf
      exact iff_of_true rfl rfl
  | some s =>
    rw [hsplit] at hlaid
    cases hlaid with
    | branch hbranch =>
      cases hnode.symm.trans hbranch
      exact iff_of_false nofun nofun

/-- What is held below a node is one of the items below it. -/
theorem Stands.exists_item (h : Stands limit items i depth first part)
    (hheld : HoldsBelow (build limit items).layout i place) :
    ∃ item ∈ part, (build limit items).items[place]? = some item.index := by
  obtain ⟨hfirst, hlast⟩ := h.laid.holdsBelow_iff.1 hheld
  have hk := List.getElem?_eq_getElem (l := (build (limit - depth) part).items)
    (i := place - first) (by omega)
  have hplace := h.item _ _ hk
  rw [Nat.add_sub_cancel' hfirst] at hplace
  obtain ⟨item, hitem, hindex⟩ :=
    List.mem_map.1 ((built_build _ part).items_perm.subset (List.mem_of_getElem? hk))
  exact ⟨item, hitem, hindex ▸ hplace⟩

/-- The items below a node are what is held below it. -/
theorem Stands.below (h : Stands limit (itemsOf boxes) i depth first part) :
    Below boxes (build limit (itemsOf boxes)).layout (build limit (itemsOf boxes)).items i
      part where
  nodup := by
    obtain ⟨sub, hperm, hsub⟩ := h.subperm
    rw [← (hperm.map _).nodup_iff]
    refine (hsub.map Item.index).nodup ?_
    rw [map_index_itemsOf]
    exact List.nodup_range
  box item hitem := getElem?_of_mem_itemsOf (h.subperm.subset hitem)
  mem_iff k := by
    constructor
    · intro hk
      have hmem := (built_build (limit - depth) part).items_perm.symm.subset hk
      obtain ⟨j, hj⟩ := List.mem_iff_getElem?.1 hmem
      have hlt := (List.getElem?_eq_some_iff.1 hj).1
      exact ⟨first + j, h.laid.holdsBelow_iff.2 (by omega), h.item j k hj⟩
    · rintro ⟨place, hheld, hplace⟩
      obtain ⟨item, hitem, hindex⟩ := h.exists_item hheld
      cases hplace.symm.trans hindex
      exact List.mem_map_of_mem hitem

end Tree

end Candela.Bvh
