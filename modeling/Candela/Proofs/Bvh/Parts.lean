import Candela.Proofs.Bvh.Below

/-!
# What the roots of packed hierarchies reach

The nodes below the root of a part are those of the part, and the places that leaves among them hold
are those of its items (`Packed.Contains.reaches_iff`, `Packed.Contains.holdsBelow_iff`). The parts
lie side by side, so that every node is below one root, and every place is held below one root
(`Packed.MadeOf.existsUnique_reaches`, `Packed.MadeOf.existsUnique_holdsBelow`).
-/

namespace Candela.Bvh

variable {nodes : Array Node} {p : Packed} {h : Bvh} {root i x leaf place child parent : Nat}
  {t : Tree}

/-! ## Hierarchies by themselves -/

/-- What is some steps away from the root is below it. -/
theorem AtDepth.reaches {depth : Nat} (hdepth : AtDepth nodes i depth) : Reaches nodes 0 i := by
  induction hdepth with
  | root => exact .refl
  | child _ hchild ih => exact .tail ih hchild

/-- A root without items has no children. -/
theorem not_isChild_empty : ¬ IsChild #[.empty] child parent := by
  rintro ⟨box, left, hnode, -⟩
  obtain ⟨hlt, hnode⟩ := Array.getElem?_eq_some_iff.1 hnode
  obtain rfl : parent = 0 := Nat.lt_one_iff.1 hlt
  cases hnode

/-- A root without items holds nothing. -/
theorem not_holds_empty : ¬ Holds #[.empty] leaf place := by
  rintro ⟨box, first, count, hnode, -⟩
  obtain ⟨hlt, hnode⟩ := Array.getElem?_eq_some_iff.1 hnode
  obtain rfl : leaf = 0 := Nat.lt_one_iff.1 hlt
  cases hnode

/-- All nodes of a hierarchy are below its root. -/
theorem reaches_of_lt_size (h : Bvh) (hi : i < h.nodes.size) : Reaches h.nodes 0 i := by
  obtain ⟨_ | t⟩ := h
  · obtain rfl : i = 0 := Nat.lt_one_iff.1 hi
    exact .refl
  · obtain ⟨depth, hdepth⟩ := t.exists_atDepth hi
    exact hdepth.reaches

/-- The children of a hierarchy's nodes are there. -/
theorem lt_size_of_isChild (h : Bvh) (hchild : IsChild h.nodes child parent) :
    child < h.nodes.size := by
  obtain ⟨_ | t⟩ := h
  · exact absurd hchild not_isChild_empty
  · exact Tree.isChild_lt_size hchild

/-- The places that a hierarchy's leaves hold are those of its items. -/
theorem exists_holds_iff (h : Bvh) :
    (∃ leaf, leaf < h.nodes.size ∧ Holds h.nodes leaf place) ↔ place < h.items.length := by
  obtain ⟨_ | t⟩ := h
  · constructor
    · rintro ⟨leaf, -, hholds⟩
      exact absurd hholds not_holds_empty
    · intro hlt
      cases hlt
  · constructor
    · rintro ⟨leaf, -, hholds⟩
      exact t.place_lt_of_holds hholds
    · intro hlt
      obtain ⟨leaf, hholds, -⟩ := t.existsUnique_leaf hlt
      obtain ⟨_, _, _, hnode, -⟩ := id hholds
      exact ⟨leaf, (Array.getElem?_eq_some_iff.1 hnode).1, hholds⟩

/-! ## Parts -/

namespace Node

/-- The children of a node that is moved along. -/
theorem children_shift (n : Node) (root start : Nat) :
    (n.shift root start).children = n.children.map (· + root) := by
  cases n with
  | branch b left => simp [shift, children, Nat.add_right_comm]
  | empty => rfl
  | leaf => rfl

/-- The places of the items of a node that is moved along. -/
theorem span_shift (n : Node) (root start : Nat) :
    (n.shift root start).span = n.span.map (start + ·) := by
  cases n with
  | leaf b first count => simp [shift, span, List.map_add_range', Nat.add_comm]
  | empty => rfl
  | branch => rfl

end Node

namespace Packed

variable {part : Part} {parts : List Part}

/-- The nodes in the range of a part are its nodes, moved along. -/
theorem Contains.getElem? (hpart : p.Contains part) (hi : i < part.hierarchy.nodes.size) :
    ∃ node, part.hierarchy.nodes[i]? = some node ∧
      p.nodes[i + part.nodes.offset]? = some (node.shift part.nodes.offset part.items.offset) :=
  ⟨_, Array.getElem?_eq_getElem hi, hpart.node i _ (Array.getElem?_eq_getElem hi)⟩

/-- The children of a part's nodes are children in the part. -/
theorem Contains.isChild_iff (hpart : p.Contains part) (hi : i < part.hierarchy.nodes.size) :
    IsChild p.nodes child (i + part.nodes.offset) ↔
      ∃ c, IsChild part.hierarchy.nodes c i ∧ c + part.nodes.offset = child := by
  obtain ⟨node, hnode, hmoved⟩ := hpart.getElem? hi
  simp only [Bvh.isChild_iff, hnode, hmoved, Option.some.injEq, exists_eq_left',
    Node.children_shift, List.mem_map]

/-- The places that a part's leaves hold are places in the part. -/
theorem Contains.holds_iff (hpart : p.Contains part) (hi : i < part.hierarchy.nodes.size) :
    Bvh.Holds p.nodes (i + part.nodes.offset) place ↔
      ∃ s, Bvh.Holds part.hierarchy.nodes i s ∧ part.items.offset + s = place := by
  obtain ⟨node, hnode, hmoved⟩ := hpart.getElem? hi
  simp only [Bvh.holds_iff, hnode, hmoved, Option.some.injEq, exists_eq_left', Node.span_shift,
    List.mem_map]

/-- A node in the range of a part is known by its place in the part. -/
theorem Contains.mem_nodes_iff (hpart : p.Contains part) :
    x ∈ part.nodes ↔ ∃ i < part.hierarchy.nodes.size, i + part.nodes.offset = x := by
  rw [Arena.Range.mem_iff, Arena.Range.stop, hpart.nodes_length]
  constructor
  · rintro ⟨hlo, hhi⟩
    exact ⟨x - part.nodes.offset, by omega, Nat.sub_add_cancel hlo⟩
  · rintro ⟨i, hi, rfl⟩
    omega

/-- What is below the root of a part are the nodes of the part. -/
theorem Contains.reaches_iff (hpart : p.Contains part) :
    Reaches p.nodes part.nodes.offset x ↔ x ∈ part.nodes := by
  rw [hpart.mem_nodes_iff]
  constructor
  · intro hreach
    induction hreach with
    | refl =>
      have hpos : 0 < part.hierarchy.nodes.size := by
        obtain ⟨⟨_ | t⟩, _, _⟩ := part
        · exact Nat.one_pos
        · exact t.size_layout ▸ Nat.succ_pos _
      exact ⟨0, hpos, Nat.zero_add _⟩
    | tail _ hchild ih =>
      obtain ⟨i, hi, rfl⟩ := ih
      obtain ⟨c, hc, rfl⟩ := (hpart.isChild_iff hi).1 hchild
      exact ⟨c, lt_size_of_isChild _ hc, rfl⟩
  · rintro ⟨i, hi, rfl⟩
    have hstep : ∀ parent child, IsChild part.hierarchy.nodes child parent →
        IsChild p.nodes (child + part.nodes.offset) (parent + part.nodes.offset) := by
      intro parent child hchild
      have hparent : parent < part.hierarchy.nodes.size := by
        obtain ⟨_, _, hnode, -⟩ := id hchild
        exact (Array.getElem?_eq_some_iff.1 hnode).1
      exact (hpart.isChild_iff hparent).2 ⟨child, hchild, rfl⟩
    have hmoved : Reaches p.nodes (0 + part.nodes.offset) (i + part.nodes.offset) :=
      (reaches_of_lt_size part.hierarchy hi).lift (· + part.nodes.offset) hstep
    rwa [Nat.zero_add] at hmoved

/-- What is held below the root of a part are the places of its items. -/
theorem Contains.holdsBelow_iff (hpart : p.Contains part) :
    HoldsBelow p.nodes part.nodes.offset place ↔ place ∈ part.items := by
  have hplaces : place ∈ part.items ↔
      ∃ s < part.hierarchy.items.length, part.items.offset + s = place := by
    rw [Arena.Range.mem_iff, Arena.Range.stop, hpart.items_length]
    constructor
    · rintro ⟨hlo, hhi⟩
      exact ⟨place - part.items.offset, by omega, Nat.add_sub_cancel' hlo⟩
    · rintro ⟨s, hs, rfl⟩
      omega
  rw [hplaces]
  constructor
  · rintro ⟨leaf, hreach, hholds⟩
    obtain ⟨i, hi, rfl⟩ := hpart.mem_nodes_iff.1 (hpart.reaches_iff.1 hreach)
    obtain ⟨s, hs, rfl⟩ := (hpart.holds_iff hi).1 hholds
    exact ⟨s, (exists_holds_iff _).1 ⟨i, hi, hs⟩, rfl⟩
  · rintro ⟨s, hs, rfl⟩
    obtain ⟨i, hi, hholds⟩ := (exists_holds_iff _).2 hs
    exact ⟨i + part.nodes.offset,
      hpart.reaches_iff.2 (hpart.mem_nodes_iff.2 ⟨i, hi, rfl⟩),
      (hpart.holds_iff hi).2 ⟨s, hholds, rfl⟩⟩

/-- The places that are held below a root hold the numbers below a count, each in one place. -/
structure Lists (p : Packed) (root count : Nat) : Prop where
  item : ∀ place, HoldsBelow p.nodes root place → ∃ k < count, p.items[place]? = some k
  place : ∀ k < count, ∃! place, HoldsBelow p.nodes root place ∧ p.items[place]? = some k

/-- What is held below the root of a part are its items. -/
theorem Contains.lists (hpart : p.Contains part) {count : Nat}
    (hitems : part.hierarchy.items.Perm (List.range count)) : p.Lists part.nodes.offset count := by
  have hheld {place : Nat} : HoldsBelow p.nodes part.nodes.offset place ↔
      ∃ i k, part.hierarchy.items[i]? = some k ∧ part.items.offset + i = place := by
    rw [hpart.holdsBelow_iff, Arena.Range.mem_iff, Arena.Range.stop, hpart.items_length]
    constructor
    · rintro ⟨hlo, hhi⟩
      exact ⟨place - part.items.offset, _, List.getElem?_eq_getElem (by omega), by omega⟩
    · rintro ⟨i, k, hk, rfl⟩
      have hlt := (List.getElem?_eq_some_iff.1 hk).1
      omega
  refine ⟨fun place hplace => ?_, fun k hk => ?_⟩
  · obtain ⟨i, k, hk, rfl⟩ := hheld.1 hplace
    exact ⟨k, List.mem_range.1 (hitems.subset (List.mem_of_getElem? hk)), hpart.item i k hk⟩
  · obtain ⟨i, hi⟩ := List.mem_iff_getElem?.1 (hitems.symm.subset (List.mem_range.2 hk))
    refine ⟨part.items.offset + i, ⟨hheld.2 ⟨i, k, hi, rfl⟩, hpart.item i k hi⟩, ?_⟩
    rintro place ⟨hplace, hread⟩
    obtain ⟨j, k', hj, rfl⟩ := hheld.1 hplace
    cases (hpart.item j k' hj).symm.trans hread
    -- no item stands in two places
    have hnodup : part.hierarchy.items.Nodup := hitems.nodup_iff.2 List.nodup_range
    rw [(List.getElem?_inj (List.getElem?_eq_some_iff.1 hj).1 hnodup).1 (hj.trans hi.symm)]

/-! ## All roots -/

/-- Every root is that of a part. -/
theorem MadeOf.exists_part (hparts : p.MadeOf parts) {k : Nat}
    (hroot : (0 :: p.roots.toList)[k]? = some root) :
    ∃ part, parts[k]? = some part ∧ part.nodes.offset = root ∧ p.Contains part := by
  rw [← hparts.roots, List.getElem?_map, Option.map_eq_some_iff] at hroot
  obtain ⟨part, hk, hroot⟩ := hroot
  exact ⟨part, hk, hroot, hparts.contains part (List.mem_of_getElem? hk)⟩

/-- What is so below a root exactly in one range of its part is so below one root. -/
theorem MadeOf.existsUnique_root (hparts : p.MadeOf parts) {range : Part → Arena.Range} {hi : Nat}
    (htiles : Arena.Tiles 0 (parts.map range) hi) {below : (root : Nat) → Prop}
    (hbelow : ∀ part, p.Contains part → (below part.nodes.offset ↔ x ∈ range part)) (hx : x < hi) :
    ∃! k : Nat, ∃ root, (0 :: p.roots.toList)[k]? = some root ∧ below root := by
  have hsame (k : Nat) : (∃ root, (0 :: p.roots.toList)[k]? = some root ∧ below root) ↔
      ∃ r, (parts.map range)[k]? = some r ∧ x ∈ r := by
    constructor
    · rintro ⟨root, hroot, hx⟩
      obtain ⟨part, hk, rfl, hpart⟩ := hparts.exists_part hroot
      exact ⟨range part, by rw [List.getElem?_map, hk, Option.map_some], (hbelow part hpart).1 hx⟩
    · rintro ⟨r, hr, hx⟩
      rw [List.getElem?_map, Option.map_eq_some_iff] at hr
      obtain ⟨part, hk, rfl⟩ := hr
      obtain ⟨hroot, hpart⟩ := hparts.getElem? hk
      exact ⟨_, hroot, (hbelow part hpart).2 hx⟩
  simpa only [hsame] using htiles.existsUnique (Nat.zero_le x) hx

/-- Every node is below one root. -/
theorem MadeOf.existsUnique_reaches (hparts : p.MadeOf parts) (hx : x < p.nodes.size) :
    ∃! k : Nat, ∃ root, (0 :: p.roots.toList)[k]? = some root ∧ Reaches p.nodes root x :=
  hparts.existsUnique_root hparts.nodes (fun _ hpart => hpart.reaches_iff) hx

/-- Every place of an item is held below one root. -/
theorem MadeOf.existsUnique_holdsBelow (hparts : p.MadeOf parts) (hplace : place < p.items.size) :
    ∃! k : Nat, ∃ root, (0 :: p.roots.toList)[k]? = some root ∧ HoldsBelow p.nodes root place :=
  hparts.existsUnique_root hparts.items (fun _ hpart => hpart.holdsBelow_iff) hplace

/-- What is below a root is there. -/
theorem MadeOf.lt_of_reaches (hparts : p.MadeOf parts) {k : Nat}
    (hroot : (0 :: p.roots.toList)[k]? = some root) (hreach : Reaches p.nodes root x) :
    x < p.nodes.size := by
  obtain ⟨part, hk, rfl, hpart⟩ := hparts.exists_part hroot
  have hmem := List.mem_map_of_mem (f := (·.nodes)) (List.mem_of_getElem? hk)
  exact Nat.lt_of_lt_of_le (hpart.reaches_iff.1 hreach).2 (hparts.nodes.bounds hmem).2

/-- What is held below a root is there. -/
theorem MadeOf.lt_of_holdsBelow (hparts : p.MadeOf parts) {k : Nat}
    (hroot : (0 :: p.roots.toList)[k]? = some root) (hheld : HoldsBelow p.nodes root place) :
    place < p.items.size := by
  obtain ⟨part, hk, rfl, hpart⟩ := hparts.exists_part hroot
  have hmem := List.mem_map_of_mem (f := (·.items)) (List.mem_of_getElem? hk)
  exact Nat.lt_of_lt_of_le (hpart.holdsBelow_iff.1 hheld).2 (hparts.items.bounds hmem).2

end Packed

/-- In a packed scene every instance is listed below the first node, and the items of every shape
are listed below the shape's root. -/
theorem pack_lists (shapes : List Bvh) (instances : List Instance) :
    (pack shapes instances).Lists 0 instances.length ∧
      ∀ (k : Nat) h count, shapes[k]? = some h → h.items.Perm (List.range count) →
        ∃ root, (pack shapes instances).roots[k]? = some root ∧
          (pack shapes instances).Lists root count := by
  obtain ⟨parts, hparts, hhierarchies⟩ := exists_madeOf shapes instances
  -- what is a hierarchy's is that of a part
  have hlists {k count : Nat} {h : Bvh}
      (hk : (ofBoxes (instances.map (·.box)) :: shapes)[k]? = some h)
      (hitems : h.items.Perm (List.range count)) :
      ∃ root, (0 :: (pack shapes instances).roots.toList)[k]? = some root ∧
        (pack shapes instances).Lists root count := by
    rw [← hhierarchies, List.getElem?_map, Option.map_eq_some_iff] at hk
    obtain ⟨part, hk, rfl⟩ := hk
    obtain ⟨hroot, hpart⟩ := hparts.getElem? hk
    exact ⟨_, hroot, hpart.lists hitems⟩
  refine ⟨?_, fun k h count hk hitems => ?_⟩
  · have hitems := items_ofBoxes_perm (instances.map (·.box))
    rw [List.length_map] at hitems
    obtain ⟨root, hroot, htop⟩ := hlists (k := 0) rfl hitems
    cases hroot
    exact htop
  · obtain ⟨root, hroot, hlist⟩ := hlists (k := k + 1) hk hitems
    exact ⟨root, by rwa [List.getElem?_cons_succ, Array.getElem?_toList] at hroot, hlist⟩

end Candela.Bvh
