import Mathlib.Data.List.Nodup
import Candela.Bvh.Basic

/-!
# Where the parts of a tree are laid out

`Tree.placed` lists the nodes of a laid-out tree with their places. It is what the layout writes
(`getElem?_place_of_mem`), and three equations about it say how: the places are the one of the root
and an interval (`map_placed`), every place of this interval is a child exactly once
(`flatMap_children_placed`), and the leaves divide the items among them from left to right
(`flatMap_span_placed`). `Laid` says that a tree can be read from an array of nodes, whatever else
the array holds (`laid_of_placed`).
-/

namespace Candela.Bvh

/-! ## Nodes -/

namespace Node

/-- Whether a node has items. -/
def isLeaf : Node → Bool
  | leaf _ _ _ => true
  | _ => false

/-- The places of the children of a node. -/
def children : Node → List Nat
  | branch _ left => [left, left + 1]
  | _ => []

/-- The places of the items of a node. -/
def span : Node → List Nat
  | leaf _ first count => List.range' first count
  | _ => []

/-- Whether a node has children or items. -/
def Filled : Node → Prop
  | empty => False
  | branch _ _ => True
  | leaf _ _ count => 0 < count

end Node

namespace Tree

/-- How many branches there are. -/
def branchCount : Tree → Nat
  | leaf _ _ => 0
  | branch _ l r => l.branchCount + r.branchCount + 1

/-- There is one leaf more than there are branches. -/
theorem leafCount_eq (t : Tree) : t.leafCount = t.branchCount + 1 := by
  induction t with
  | leaf => rfl
  | branch b l r ihl ihr =>
    rw [leafCount, branchCount, ihl, ihr]
    omega

/-- Whether every leaf of a tree holds something. -/
def Full : Tree → Prop
  | leaf _ is => is ≠ []
  | branch _ l r => l.Full ∧ r.Full

/-- The nodes of a tree that is laid out with its root at `slot`, its items from `first` on and
everything below its root from `free` on. -/
def placed : Tree → (slot first free : Nat) → List (Nat × Node)
  | leaf b is, slot, first, _ => [(slot, .leaf b first is.length)]
  | branch b l r, slot, first, free =>
    (slot, .branch b free) ::
      (l.placed free first (free + 2) ++
        r.placed (free + 1) (first + l.items.length) (free + 2 + 2 * l.branchCount))

variable {t : Tree} {slot first free : Nat} {e : Nat × Node}

/-! ## Places -/

/-- An interval with two more places in front, of which the rest is cut in two. -/
theorem range'_two_add (free m n : Nat) :
    List.range' free (2 * (m + n + 1)) =
      free :: (free + 1) ::
        (List.range' (free + 2) (2 * m) ++ List.range' (free + 2 + 2 * m) (2 * n)) := by
  have hsplit : 2 * (m + n + 1) = 2 * m + 2 * n + 1 + 1 := by omega
  rw [hsplit, List.range'_succ, List.range'_succ, ← List.range'_append_1]

/-- A tree takes the place of its root, and an interval for everything below it. -/
theorem map_placed (t : Tree) (slot first free : Nat) :
    ((t.placed slot first free).map Prod.fst).Perm
      (slot :: List.range' free (2 * t.branchCount)) := by
  induction t generalizing slot first free with
  | leaf => rfl
  | branch b l r ihl ihr =>
    rw [placed, List.map_cons, List.map_append, branchCount, range'_two_add]
    refine List.Perm.cons _ (((ihl _ _ _).append (ihr _ _ _)).trans ?_)
    exact List.Perm.cons _ List.perm_middle

/-- Every place below the root is that of a child, and of one child only. -/
theorem flatMap_children_placed (t : Tree) (slot first free : Nat) :
    ((t.placed slot first free).flatMap (·.2.children)).Perm
      (List.range' free (2 * t.branchCount)) := by
  induction t generalizing slot first free with
  | leaf => rfl
  | branch b l r ihl ihr =>
    rw [placed, List.flatMap_cons, List.flatMap_append, branchCount, range'_two_add]
    exact (((ihl _ _ _).append (ihr _ _ _)).cons _).cons _

/-- The leaves divide the places of the items among them, from left to right. -/
theorem flatMap_span_placed (t : Tree) (slot first free : Nat) :
    (t.placed slot first free).flatMap (·.2.span) = List.range' first t.items.length := by
  induction t generalizing slot first free with
  | leaf b is => simp [placed, Node.span, items]
  | branch b l r ihl ihr =>
    rw [placed, List.flatMap_cons, List.flatMap_append, ihl, ihr, items, List.length_append,
      ← List.range'_append_1]
    rfl

/-- Children are placed behind their parents. -/
theorem lt_of_mem_children (hslot : slot < free) (he : e ∈ t.placed slot first free) {child : Nat}
    (hchild : child ∈ e.2.children) : e.1 < child := by
  induction t generalizing slot first free with
  | leaf =>
    obtain rfl := List.mem_singleton.1 he
    cases hchild
  | branch b l r ihl ihr =>
    rcases List.mem_cons.1 he with rfl | he
    · rcases List.mem_cons.1 hchild with rfl | hchild
      · exact hslot
      · obtain rfl := List.mem_singleton.1 hchild
        exact Nat.lt_succ_of_lt hslot
    · rcases List.mem_append.1 he with he | he
      · exact ihl (by omega) he
      · exact ihr (by omega) he

/-- Every node of a tree whose leaves hold something has children or items. -/
theorem Full.filled (h : t.Full) (he : e ∈ t.placed slot first free) : e.2.Filled := by
  induction t generalizing slot first free with
  | leaf =>
    obtain rfl := List.mem_singleton.1 he
    exact List.length_pos_iff.2 h
  | branch b l r ihl ihr =>
    rcases List.mem_cons.1 he with rfl | he
    · exact trivial
    · rcases List.mem_append.1 he with he | he
      · exact ihl h.1 he
      · exact ihr h.2 he

/-- The leaves of a tree are laid out as leaves. -/
theorem countP_isLeaf_placed (t : Tree) (slot first free : Nat) :
    (t.placed slot first free).countP (·.2.isLeaf) = t.leafCount := by
  induction t generalizing slot first free with
  | leaf => rfl
  | branch b l r ihl ihr =>
    rw [placed, List.countP_cons_of_neg (by simp [Node.isLeaf]), List.countP_append, ihl, ihr,
      leafCount]

/-! ## Writing -/

variable {nodes : Array Node} {i : Nat}

/-- Laying a tree out adds two nodes for each of its branches. -/
theorem size_place (t : Tree) (slot first : Nat) (nodes : Array Node) :
    (t.place slot first nodes).size = nodes.size + 2 * t.branchCount := by
  induction t generalizing slot first nodes with
  | leaf => simp [place, branchCount]
  | branch b l r ihl ihr =>
    rw [place, ihr, ihl, branchCount]
    simp
    omega

/-- Laying a tree out only writes to the place of its root and to new places. -/
theorem getElem?_place_of_ne (hi : i < nodes.size) (hne : i ≠ slot) :
    (t.place slot first nodes)[i]? = nodes[i]? := by
  induction t generalizing slot first nodes with
  | leaf => simp [place, hne.symm]
  | branch b l r ihl ihr =>
    rw [place, ihr, ihl]
    · have h1 : i ≠ nodes.size := Nat.ne_of_lt hi
      have h2 : i ≠ nodes.size + 1 := by omega
      simp [Array.getElem?_push, h1, h2, hne.symm]
    · simp
      omega
    · omega
    · rw [size_place]
      simp
      omega
    · omega

/-- What laying a tree out writes. -/
theorem getElem?_place_of_mem (hslot : slot < nodes.size)
    (he : e ∈ t.placed slot first nodes.size) :
    (t.place slot first nodes)[e.1]? = some e.2 := by
  induction t generalizing slot first nodes with
  | leaf =>
    obtain rfl := List.mem_singleton.1 he
    simp [place, hslot]
  | branch b l r ihl ihr =>
    rw [place]
    generalize hN : ((nodes.setIfInBounds slot (.branch b nodes.size)).push .empty).push .empty = N
    have hsize : N.size = nodes.size + 2 := by simp [← hN]
    have hroom : N.size ≤ (l.place nodes.size first N).size := by
      rw [size_place]
      exact Nat.le_add_right _ _
    rcases List.mem_cons.1 he with rfl | he
    · rw [getElem?_place_of_ne (by omega) (by omega), getElem?_place_of_ne (by omega) (by omega)]
      have h1 : slot ≠ nodes.size := Nat.ne_of_lt hslot
      have h2 : slot ≠ nodes.size + 1 := by omega
      simp [← hN, Array.getElem?_push, h1, h2, hslot]
    · rcases List.mem_append.1 he with he | he
      · -- what belongs to the left tree is left alone by the right one
        have hmem : e.1 ∈ nodes.size :: List.range' (nodes.size + 2) (2 * l.branchCount) :=
          (map_placed l _ _ _).subset (List.mem_map_of_mem he)
        rw [List.mem_cons, List.mem_range'_1] at hmem
        have hsize' := size_place l nodes.size first N
        rw [getElem?_place_of_ne (by omega) (by omega)]
        exact ihl (by omega) (by rwa [hsize])
      · refine ihr (by omega) ?_
        rw [size_place, hsize]
        exact he

end Tree

/-! ## Reading -/

/-- A tree is read from an array of nodes, its root at `slot` and its items from `first` on. -/
inductive Laid (nodes : Array Node) : (slot first : Nat) → Tree → Prop where
  /-- A leaf has as many items as its node says. -/
  | leaf {slot first : Nat} {b : Box Float32} {is : List Nat}
      (hnode : nodes[slot]? = some (.leaf b first is.length)) : Laid nodes slot first (.leaf b is)
  /-- The items of the right tree come after those of the left one. -/
  | branch {slot first left : Nat} {b : Box Float32} {l r : Tree}
      (hnode : nodes[slot]? = some (.branch b left)) (hl : Laid nodes left first l)
      (hr : Laid nodes (left + 1) (first + l.items.length) r) :
      Laid nodes slot first (.branch b l r)

/-- A tree is read where it has been laid out. -/
theorem laid_of_placed {nodes : Array Node} (t : Tree) (slot first free : Nat)
    (h : ∀ e ∈ t.placed slot first free, nodes[e.1]? = some e.2) : Laid nodes slot first t := by
  induction t generalizing slot first free with
  | leaf => exact .leaf (h _ List.mem_cons_self)
  | branch b l r ihl ihr =>
    have hleft : ∀ e ∈ l.placed free first (free + 2), nodes[e.1]? = some e.2 := fun e he =>
      h e (List.mem_cons_of_mem _ (List.mem_append_left _ he))
    have hright := fun e he => h e (List.mem_cons_of_mem _ (List.mem_append_right _ he))
    exact .branch (h _ List.mem_cons_self) (ihl _ _ _ hleft) (ihr _ _ _ hright)

end Candela.Bvh
