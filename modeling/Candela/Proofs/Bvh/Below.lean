import Mathlib.Logic.Relation
import Candela.Proofs.Bvh.Nearest

/-!
# What is below a root

The nodes that are reached from a root, child by child, and the places among the items that the
leaves among them hold. Where a tree can be read, every item of the tree stands in a leaf below its
root (`Laid.exists_leafOf`), and the nodes on the way to such a leaf have the boxes on a way to the
item (`Laid.exists_pathTo`).
-/

namespace Candela.Bvh

variable {nodes : Array Node} {p : Packed} {root first leaf i k : Nat} {t : Tree} {h : Bvh}

/-- A node is another one or below it. -/
def Reaches (nodes : Array Node) : (root i : Nat) → Prop :=
  Relation.ReflTransGen fun parent child => IsChild nodes child parent

/-- A place among the items belongs to a leaf below a root. -/
def HoldsBelow (nodes : Array Node) (root place : Nat) : Prop :=
  ∃ leaf, Reaches nodes root leaf ∧ Holds nodes leaf place

/-- A leaf below a root has an item. -/
def Packed.LeafOf (p : Packed) (root leaf item : Nat) : Prop :=
  Reaches p.nodes root leaf ∧ ∃ place, Bvh.Holds p.nodes leaf place ∧ p.items[place]? = some item

/-- A node is on the way from a root to a node below the root. -/
def OnWay (nodes : Array Node) (root target : Nat) (node : Node) : Prop :=
  ∃ i, Reaches nodes root i ∧ Reaches nodes i target ∧ nodes[i]? = some node

/-- What is below a child is below its parent. -/
theorem reaches_of_isChild {child : Nat} (hchild : IsChild nodes child root)
    (hreach : Reaches nodes child i) : Reaches nodes root i :=
  .head hchild hreach

/-- What is on the way from a child is on the way from its parent. -/
theorem OnWay.of_isChild {child : Nat} {node : Node} (hchild : IsChild nodes child root)
    (h : OnWay nodes child leaf node) : OnWay nodes root leaf node := by
  obtain ⟨i, hroot, hleaf, hnode⟩ := h
  exact ⟨i, reaches_of_isChild hchild hroot, hleaf, hnode⟩

/-- A root is on the way to everything below it. -/
theorem OnWay.of_root {node : Node} (hreach : Reaches nodes root leaf)
    (hnode : nodes[root]? = some node) : OnWay nodes root leaf node :=
  ⟨root, .refl, hreach, hnode⟩

/-- A node with children has its children below it, and nothing else but itself. -/
theorem Reaches.cases_branch {b : Box Float32} {left : Nat}
    (hnode : nodes[root]? = some (.branch b left)) (hreach : Reaches nodes root i) :
    i = root ∨ Reaches nodes left i ∨ Reaches nodes (left + 1) i := by
  rcases Relation.ReflTransGen.cases_head hreach with rfl | ⟨child, hchild, hrest⟩
  · exact .inl rfl
  · obtain ⟨b', left', hnode', hchild⟩ := hchild
    cases hnode.symm.trans hnode'
    rcases hchild with rfl | rfl
    · exact .inr (.inl hrest)
    · exact .inr (.inr hrest)

/-- A node without children has nothing below it but itself. -/
theorem Reaches.eq_of_not_branch {node : Node} (hnode : nodes[root]? = some node)
    (hbranch : ∀ b left, node ≠ .branch b left) (hreach : Reaches nodes root i) : i = root := by
  rcases Relation.ReflTransGen.cases_head hreach with rfl | ⟨child, ⟨b, left, hnode', -⟩, -⟩
  · rfl
  · cases hnode.symm.trans hnode'
    exact absurd rfl (hbranch b left)

/-- A leaf below a child is a leaf below its parent. -/
theorem Packed.LeafOf.of_isChild {child : Nat} (hchild : IsChild p.nodes child root)
    (h : p.LeafOf child leaf k) : p.LeafOf root leaf k :=
  ⟨reaches_of_isChild hchild h.1, h.2⟩

/-- Every item of a tree that can be read stands in a leaf below the root. -/
theorem Laid.exists_leafOf (hlaid : Laid p.nodes root first t)
    (hitems : ∀ i x, t.items[i]? = some x → p.items[first + i]? = some x)
    (hk : k ∈ t.items) : ∃ leaf, p.LeafOf root leaf k := by
  induction hlaid with
  | @leaf slot first b is hnode =>
    obtain ⟨i, hi⟩ := List.mem_iff_getElem?.1 hk
    have hlt : i < is.length := (List.getElem?_eq_some_iff.1 hi).1
    exact ⟨slot, .refl, first + i, ⟨b, first, is.length, hnode, by omega, by omega⟩, hitems i k hi⟩
  | @branch slot first left b l r hnode _ _ ihl ihr =>
    have hleft := Tree.forall_items_left (P := fun place x => p.items[place]? = some x) hitems
    have hright := Tree.forall_items_right (P := fun place x => p.items[place]? = some x) hitems
    rcases List.mem_append.1 hk with hkl | hkr
    · obtain ⟨leaf, hleaf⟩ := ihl hleft hkl
      exact ⟨leaf, hleaf.of_isChild ⟨b, left, hnode, .inl rfl⟩⟩
    · obtain ⟨leaf, hleaf⟩ := ihr hright hkr
      exact ⟨leaf, hleaf.of_isChild ⟨b, left, hnode, .inr rfl⟩⟩

/-- The nodes on the way to a leaf that has an item have the boxes on a way to the item. -/
theorem Laid.exists_pathTo (hlaid : Laid p.nodes root first t)
    (hitems : ∀ i x, t.items[i]? = some x → p.items[first + i]? = some x)
    (hleaf : p.LeafOf root leaf k) :
    ∃ bs, t.PathTo k bs ∧ ∀ b ∈ bs, ∃ node, OnWay p.nodes root leaf node ∧ node.box = b := by
  induction hlaid with
  | @leaf slot first b is hnode =>
    obtain ⟨hreach, place, ⟨b', first', count, hnode', hfirst, hlast⟩, hplace⟩ := hleaf
    obtain rfl := hreach.eq_of_not_branch hnode nofun
    cases hnode.symm.trans hnode'
    have hk : is[place - first]? = some is[place - first] := List.getElem?_eq_getElem (by omega)
    have hread := hitems _ _ hk
    rw [Nat.add_sub_cancel' hfirst, hplace] at hread
    cases hread
    refine ⟨[b], .leaf (List.mem_of_getElem? hk), fun b' hb' => ?_⟩
    obtain rfl := List.mem_singleton.1 hb'
    exact ⟨_, .of_root .refl hnode, rfl⟩
  | @branch slot first left b l r hnode _ _ ihl ihr =>
    have hreach := hleaf.1
    have hitemsl := Tree.forall_items_left (P := fun place x => p.items[place]? = some x) hitems
    have hitemsr := Tree.forall_items_right (P := fun place x => p.items[place]? = some x) hitems
    -- the box of the root stands before those on the way from a child
    have hcons {child : Nat} {bs : List (Box Float32)} (hchild : IsChild p.nodes child slot)
        (hbs : ∀ b ∈ bs, ∃ node, OnWay p.nodes child leaf node ∧ node.box = b) :
        ∀ b' ∈ b :: bs, ∃ node, OnWay p.nodes slot leaf node ∧ node.box = b' := by
      intro b' hb'
      rcases List.mem_cons.1 hb' with rfl | hb'
      · exact ⟨_, .of_root hreach hnode, rfl⟩
      · obtain ⟨node, hway, hbox⟩ := hbs b' hb'
        exact ⟨node, hway.of_isChild hchild, hbox⟩
    rcases hreach.cases_branch hnode with rfl | hleft | hright
    · obtain ⟨_, _, ⟨_, _, _, hnode', -⟩, -⟩ := hleaf
      cases hnode.symm.trans hnode'
    · obtain ⟨bs, hpath, hbs⟩ := ihl hitemsl ⟨hleft, hleaf.2⟩
      exact ⟨b :: bs, .left hpath, hcons ⟨b, left, hnode, .inl rfl⟩ hbs⟩
    · obtain ⟨bs, hpath, hbs⟩ := ihr hitemsr ⟨hright, hleaf.2⟩
      exact ⟨b :: bs, .right hpath, hcons ⟨b, left, hnode, .inr rfl⟩ hbs⟩

/-- Every item of a packed hierarchy stands in a leaf below the root. -/
theorem Packed.Holds.exists_leafOf (hholds : p.Holds root first h) (hk : k ∈ h.items) :
    ∃ leaf, p.LeafOf root leaf k := by
  cases hholds with
  | empty => cases hk
  | tree hlaid _ hitems => exact hlaid.exists_leafOf hitems hk

/-- The nodes on the way to a leaf of a packed hierarchy have the boxes on a way to its item. -/
theorem Packed.Holds.exists_pathTo (hholds : p.Holds root first h) (hleaf : p.LeafOf root leaf k) :
    ∃ bs, h.PathTo k bs ∧ ∀ b ∈ bs, ∃ node, OnWay p.nodes root leaf node ∧ node.box = b := by
  cases hholds with
  | empty hnode =>
    obtain ⟨hreach, _, ⟨_, _, _, hnode', -⟩, -⟩ := hleaf
    obtain rfl := hreach.eq_of_not_branch hnode nofun
    cases hnode.symm.trans hnode'
  | tree hlaid _ hitems =>
    obtain ⟨bs, hpath, hbs⟩ := hlaid.exists_pathTo hitems hleaf
    exact ⟨bs, ⟨_, rfl, hpath⟩, hbs⟩

end Candela.Bvh
