import Candela.Proofs.Bvh.Words

/-!
# Packing keeps every hierarchy

From the words of a packed scene every hierarchy can be read again: that of the instances below the
first node, and that of every shape below its root. The hierarchies have nothing in common and leave
nothing out, since every node, and every place among the items, is below one root only. All this
holds as long as all nodes and all items can be counted in words (`packWords_keeps`), wherever there
are shapes without items.
-/

namespace Candela.Bvh

variable {nodes : Array Node} {items : Array Nat} {p : Packed} {h : Bvh} {t : Tree}
  {slot first root : Nat}

/-! ## Reading -/

/-- A tree has at least as many branches as levels below its root. -/
theorem Tree.depth_le_branchCount (t : Tree) : t.depth ≤ t.branchCount := by
  induction t with
  | leaf => exact Nat.le_refl 0
  | branch b l r ihl ihr =>
    rw [depth, branchCount]
    omega

/-- Looking up places that hold something. -/
theorem mapM_range'_of_getElem? {is : List Nat}
    (hitems : ∀ (i : Nat) (x : Nat), is[i]? = some x → items[first + i]? = some x) :
    (List.range' first is.length).mapM (items[·]?) = some is := by
  induction is generalizing first with
  | nil => rfl
  | cons x is ih =>
    have hhead : items[first]? = some x := hitems 0 x rfl
    have htail : ∀ (i : Nat) (y : Nat), is[i]? = some y → items[first + 1 + i]? = some y := by
      intro i y hy
      rw [Nat.add_right_comm]
      exact hitems (i + 1) y hy
    rw [List.length_cons, List.range'_succ, List.mapM_cons, hhead, ih htail]
    rfl

/-- A tree that stands in the nodes, and whose items stand in the indices, is read. -/
theorem Tree.read?_of_laid (hlaid : Laid nodes slot first t)
    (hitems : ∀ i x, t.items[i]? = some x → items[first + i]? = some x) {levels : Nat}
    (hlevels : t.depth < levels) : Tree.read? nodes items levels slot = some t := by
  obtain ⟨levels, rfl⟩ :=
    Nat.exists_eq_add_one_of_ne_zero (Nat.ne_of_gt (Nat.zero_lt_of_lt hlevels))
  induction hlaid generalizing levels with
  | @leaf slot first b is hnode =>
    have his : (List.range' first is.length).mapM (items[·]?) = some is :=
      mapM_range'_of_getElem? hitems
    rw [Tree.read?, hnode]
    simp [his]
  | @branch slot first left b l r hnode _ _ ihl ihr =>
    have hitemsl := Tree.forall_items_left (P := fun place x => items[place]? = some x) hitems
    have hitemsr := Tree.forall_items_right (P := fun place x => items[place]? = some x) hitems
    rw [Tree.depth] at hlevels
    obtain ⟨levels, rfl⟩ : ∃ n, levels = n + 1 := Nat.exists_eq_add_one_of_ne_zero (by omega)
    have hl := ihl hitemsl levels (by omega)
    have hr := ihr hitemsr levels (by omega)
    rw [Tree.read?, hnode]
    simp [hl, hr]

/-- A packed hierarchy is read. -/
theorem Packed.Holds.read? (hholds : p.Holds root first h) :
    Bvh.read? p.nodes p.items root = some h := by
  cases hholds with
  | empty hnode => simp [Bvh.read?, hnode]
  | @tree t hlaid hroom hitems =>
    have hlevels : t.depth < p.nodes.size := by
      have hdepth := t.depth_le_branchCount
      omega
    have hread := Tree.read?_of_laid hlaid hitems hlevels
    -- the root is not one without items
    cases hlaid with
    | leaf hnode => simp [Bvh.read?, hnode, hread]
    | branch hnode => simp [Bvh.read?, hnode, hread]

/-- The words of a hierarchy by itself are read as the hierarchy. -/
theorem words_read? (hfits : h.Fits) : h.words.read? 0 = some h := by
  let p : Packed := ⟨h.nodes, h.items.toArray, #[], 0⟩
  have hholds : p.Holds 0 0 h := by
    obtain ⟨_ | t⟩ := h
    · exact .empty rfl
    · refine .tree t.laid_layout ?_ fun i x hx => ?_
      · have hsize := t.size_layout
        exact hsize ▸ Nat.lt_succ_self _
      · rw [Nat.zero_add, List.getElem?_toArray]
        exact hx
  have hread : p.words.read = p := by
    refine Packed.words_read hfits.node (fun item hitem => ?_) nofun Nat.one_le_two_pow
    exact hfits.item item (List.mem_toArray.1 hitem)
  have hwords : h.words.read? 0 = Bvh.read? p.words.read.nodes p.words.read.items 0 := by
    have hitems : h.words.items = p.words.items := List.map_toArray.symm
    simp only [Words.read?, PackedWords.read, Words.readNodes, Words.readItems, hitems]
    rfl
  rw [hwords, hread]
  exact hholds.read?

/-! ## Packing -/

/-- What the words of a packed scene keep of the hierarchy on top and those of some shapes. -/
structure PackedWords.Keeps (w : PackedWords) (top : Bvh) (shapes : List Bvh) : Prop where
  /-- The hierarchy on top is below the first node; by itself it is read alike. -/
  top : w.read? 0 = some top ∧ top.words.read? 0 = some top
  /-- There is a root for every shape. -/
  size : w.roots.size = shapes.length
  /-- The hierarchy of a shape is below the shape's root; by itself it is read alike. -/
  shape : ∀ (k : Nat) h, shapes[k]? = some h → ∃ root, w.roots[k]? = some root ∧
    w.read? root.toNat = some h ∧ h.words.read? 0 = some h
  /-- The root of a shape is known for one without items if, and only if, the shape has none. -/
  empty : ∀ (k : Nat) h (root : UInt32), shapes[k]? = some h → w.roots[k]? = some root →
    ∃ r, w.nodes[root.toNat]? = some r ∧ (r.isEmpty = true ↔ h.items = [])
  /-- Every node is below one root. -/
  node_unique : ∀ i < w.nodes.size, ∃! k : Nat, ∃ root : UInt32,
    (0 :: w.roots.toList)[k]? = some root ∧ Reaches w.readNodes root.toNat i
  /-- Every place of an item is held below one root. -/
  place_unique : ∀ place < w.items.size, ∃! k : Nat, ∃ root : UInt32,
    (0 :: w.roots.toList)[k]? = some root ∧ HoldsBelow w.readNodes root.toNat place
  /-- What is below a root is there. -/
  node_lt : ∀ root ∈ 0 :: w.roots.toList, ∀ i, Reaches w.readNodes root.toNat i → i < w.nodes.size
  /-- What is held below a root is there. -/
  place_lt : ∀ root ∈ 0 :: w.roots.toList, ∀ place, HoldsBelow w.readNodes root.toNat place →
    place < w.items.size

/-- The words of a root without items stand for nothing else. -/
theorem Record.node_eq_empty_iff {r : Record} : r.node = .empty ↔ r.isEmpty = true := by
  rw [Record.node]
  cases hleaf : r.isLeaf with
  | false => cases hempty : r.isEmpty <;> simp
  | true =>
    have hcount : r.count ≠ 0 := UInt32.pos_iff_ne_zero.1 (of_decide_eq_true hleaf)
    simp [Record.isEmpty, hcount]

/-- The root of a packed hierarchy is one without items if the hierarchy is no tree. -/
theorem Packed.Holds.exists_root (hholds : p.Holds root first h) :
    ∃ node, p.nodes[root]? = some node ∧ (node = .empty ↔ h.root = none) := by
  cases hholds with
  | empty hnode => exact ⟨_, hnode, fun _ => rfl, fun _ => rfl⟩
  | tree hlaid =>
    cases hlaid with
    | leaf hnode => exact ⟨_, hnode, nofun, nofun⟩
    | branch hnode => exact ⟨_, hnode, nofun, nofun⟩

/-- The hierarchy of some boxes is no tree if, and only if, it has no items. -/
theorem items_ofBoxes_eq_nil_iff {boxes : List (Box Float32)} :
    (ofBoxes boxes).items = [] ↔ (ofBoxes boxes).root = none := by
  constructor
  · intro hitems
    rcases eq_or_ne boxes [] with rfl | hboxes
    · rfl
    · have hmem := mem_items_ofBoxes.2 (List.length_pos_iff.2 hboxes)
      rw [hitems] at hmem
      cases hmem
  · intro hroot
    rw [items, hroot]
    rfl

namespace Packed

variable {parts : List Part} {top : Bvh} {shapes : List Bvh} {w : PackedWords}

/-- There are as many nodes as those of all hierarchies together. -/
theorem MadeOf.size_nodes (hparts : p.MadeOf parts) :
    p.nodes.size = ((parts.map (·.hierarchy)).map (·.nodes.size)).sum := by
  have hsum := hparts.nodes.add_sum_length
  rw [Nat.zero_add, List.map_map] at hsum
  rw [← hsum, List.map_map]
  exact congrArg List.sum (List.map_congr_left fun part hpart =>
    (hparts.contains part hpart).nodes_length)

/-- There are as many items as those of all hierarchies together. -/
theorem MadeOf.size_items (hparts : p.MadeOf parts) :
    p.items.size = ((parts.map (·.hierarchy)).map (·.items.length)).sum := by
  have hsum := hparts.items.add_sum_length
  rw [Nat.zero_add, List.map_map] at hsum
  rw [← hsum, List.map_map]
  exact congrArg List.sum (List.map_congr_left fun part hpart =>
    (hparts.contains part hpart).items_length)

/-- A part ends where the packed arrays end, or before. -/
theorem MadeOf.part_le (hparts : p.MadeOf parts) {part : Part} (hpart : part ∈ parts) :
    part.nodes.offset + part.hierarchy.nodes.size ≤ p.nodes.size ∧
      part.items.offset + part.hierarchy.items.length ≤ p.items.size := by
  have hcontains := hparts.contains part hpart
  rw [← hcontains.nodes_length, ← hcontains.items_length]
  exact ⟨(hparts.nodes.bounds (List.mem_map_of_mem hpart)).2,
    (hparts.items.bounds (List.mem_map_of_mem hpart)).2⟩

/-- Roots are places of nodes. -/
theorem MadeOf.root_le (hparts : p.MadeOf parts) {root : Nat} (hroot : root ∈ p.roots) :
    root ≤ p.nodes.size := by
  have hmem := List.mem_cons_of_mem 0 (Array.mem_toList_iff.2 hroot)
  rw [← hparts.roots] at hmem
  obtain ⟨part, hpart, rfl⟩ := List.mem_map.1 hmem
  exact Nat.le_trans (Nat.le_add_right _ _) (hparts.part_le hpart).1

/-- The roots in words are those of the parts. -/
theorem roots_of_read (hread : w.read = p) :
    (0 :: w.roots.toList).map UInt32.toNat = 0 :: p.roots.toList := by
  rw [← hread, PackedWords.read, Array.toList_map]
  rfl

/-- What is so below one root is so below one root in words. -/
theorem existsUnique_of_read (hread : w.read = p) {below : (root : Nat) → Prop}
    (h : ∃! k : Nat, ∃ root, (0 :: p.roots.toList)[k]? = some root ∧ below root) :
    ∃! k : Nat, ∃ root : UInt32, (0 :: w.roots.toList)[k]? = some root ∧ below root.toNat := by
  have hsame (k : Nat) : (∃ root, (0 :: p.roots.toList)[k]? = some root ∧ below root) ↔
      ∃ root : UInt32, (0 :: w.roots.toList)[k]? = some root ∧ below root.toNat := by
    rw [← roots_of_read hread, List.getElem?_map]
    constructor
    · rintro ⟨_, hroot, hbelow⟩
      obtain ⟨root, hword, rfl⟩ := Option.map_eq_some_iff.1 hroot
      exact ⟨root, hword, hbelow⟩
    · rintro ⟨root, hroot, hbelow⟩
      exact ⟨root.toNat, by rw [hroot, Option.map_some], hbelow⟩
  simpa only [hsame] using h

/-- Every hierarchy has a root in words and is held below it. -/
theorem MadeOf.exists_holds (hparts : p.MadeOf parts) (hread : w.read = p) {k : Nat}
    (hk : (parts.map (·.hierarchy))[k]? = some h) :
    ∃ root : UInt32, (0 :: w.roots.toList)[k]? = some root ∧
      ∃ first, p.Holds root.toNat first h := by
  obtain ⟨part, hpart, rfl⟩ := Option.map_eq_some_iff.1 (List.getElem?_map ▸ hk)
  obtain ⟨hroot, hcontains⟩ := hparts.getElem? hpart
  rw [← roots_of_read hread, List.getElem?_map] at hroot
  obtain ⟨root, hroot, hoffset⟩ := Option.map_eq_some_iff.1 hroot
  exact ⟨root, hroot, _, hoffset ▸ hcontains.holds⟩

/-- Words that stand for packed arrays keep the hierarchies of the parts. -/
theorem MadeOf.keeps (hparts : p.MadeOf parts) (hread : w.read = p)
    (hhierarchies : parts.map (·.hierarchy) = top :: shapes) (hfits : ∀ h ∈ top :: shapes, h.Fits)
    (hempty : ∀ h ∈ shapes, h.items = [] ↔ h.root = none) : w.Keeps top shapes := by
  have hnodes : w.readNodes = p.nodes := congrArg Packed.nodes hread
  have hitems : w.readItems = p.items := congrArg Packed.items hread
  have hsizes : w.nodes.size = p.nodes.size ∧ w.items.size = p.items.size := by
    rw [← hnodes, ← hitems, Words.readNodes, Words.readItems, Array.size_map, Array.size_map]
    exact ⟨rfl, rfl⟩
  have hholds {k : Nat} {h : Bvh} (hk : (top :: shapes)[k]? = some h) :=
    hparts.exists_holds hread (hhierarchies ▸ hk)
  have hread? {root : UInt32} {first : Nat} {h : Bvh} (hheld : p.Holds root.toNat first h) :
      w.read? root.toNat = some h := by
    rw [Words.read?, hnodes, hitems]
    exact hheld.read?
  have hroot {root : UInt32} (hmem : root ∈ 0 :: w.roots.toList) :
      ∃ k : Nat, (0 :: p.roots.toList)[k]? = some root.toNat := by
    rw [← roots_of_read hread]
    exact List.mem_iff_getElem?.1 (List.mem_map_of_mem hmem)
  refine
    { top := ⟨?_, words_read? (hfits top List.mem_cons_self)⟩
      size := ?_
      shape := fun k h hk => ?_
      empty := fun k h root hk hroot => ?_
      node_unique := fun i hi => ?_
      place_unique := fun place hplace => ?_
      node_lt := fun root hmem i hreach => ?_
      place_lt := fun root hmem place hheld => ?_ }
  · obtain ⟨root, hroot, first, hheld⟩ := hholds (k := 0) rfl
    cases hroot
    exact hread? hheld
  · have hlength := congrArg List.length (hparts.roots.trans (roots_of_read hread).symm)
    have hcount := congrArg List.length hhierarchies
    simp only [List.length_map, List.length_cons, Array.length_toList] at hlength hcount
    omega
  · obtain ⟨root, hroot, first, hheld⟩ := hholds (k := k + 1) hk
    rw [List.getElem?_cons_succ, Array.getElem?_toList] at hroot
    exact ⟨root, hroot, hread? hheld,
      words_read? (hfits h (List.mem_cons_of_mem _ (List.mem_of_getElem? hk)))⟩
  · obtain ⟨root', hroot', first, hheld⟩ := hholds (k := k + 1) hk
    rw [List.getElem?_cons_succ, Array.getElem?_toList, hroot] at hroot'
    cases hroot'
    obtain ⟨node, hnode, hiff⟩ := hheld.exists_root
    rw [← hnodes, Words.readNodes, Array.getElem?_map] at hnode
    obtain ⟨r, hr, rfl⟩ := Option.map_eq_some_iff.1 hnode
    rw [Record.node_eq_empty_iff, ← hempty h (List.mem_of_getElem? hk)] at hiff
    exact ⟨r, hr, hiff⟩
  · rw [hnodes]
    exact existsUnique_of_read hread (hparts.existsUnique_reaches (hsizes.1 ▸ hi))
  · rw [hnodes]
    exact existsUnique_of_read hread (hparts.existsUnique_holdsBelow (hsizes.2 ▸ hplace))
  · obtain ⟨k, hk⟩ := hroot hmem
    rw [hsizes.1]
    exact hparts.lt_of_reaches hk (hnodes ▸ hreach)
  · obtain ⟨k, hk⟩ := hroot hmem
    rw [hsizes.2]
    exact hparts.lt_of_holdsBelow hk (hnodes ▸ hheld)

end Packed

/-- Packing keeps the hierarchies of all shapes, and that of the instances, as long as all nodes and
all items can be counted in words. -/
theorem packWords_keeps (shapes : List (List (Box Float32))) (instances : List Instance)
    (hnodes : (((instances.map (·.box)) :: shapes).map fun s => (ofBoxes s).nodes.size).sum <
      wordValues)
    (hitems : (((instances.map (·.box)) :: shapes).map fun s => (ofBoxes s).items.length).sum <
      wordValues) :
    (packWords (shapes.map fun s => (ofBoxes s).words) instances).Keeps
      (ofBoxes (instances.map (·.box))) (shapes.map ofBoxes) := by
  obtain ⟨parts, hparts, hhierarchies⟩ := exists_madeOf (shapes.map ofBoxes) instances
  have hall : parts.map (·.hierarchy) = ((instances.map (·.box)) :: shapes).map ofBoxes :=
    hhierarchies
  have hsizes : (pack (shapes.map ofBoxes) instances).nodes.size < wordValues ∧
      (pack (shapes.map ofBoxes) instances).items.size < wordValues := by
    rw [hparts.size_nodes, hparts.size_items, hall, List.map_map, List.map_map]
    exact ⟨hnodes, hitems⟩
  have hpartFits : ∀ part ∈ parts, part.hierarchy.Fits := by
    intro part hpart
    obtain ⟨boxes, -, hboxes⟩ := List.mem_map.1 (hall ▸ List.mem_map_of_mem hpart)
    obtain ⟨hn, hi⟩ := hparts.part_le hpart
    rw [← hboxes] at hn hi ⊢
    exact fits_ofBoxes (by omega) (by omega)
  have hfits : ∀ h ∈ ofBoxes (instances.map (·.box)) :: shapes.map ofBoxes, h.Fits := by
    rw [← hhierarchies]
    exact List.forall_mem_map.2 hpartFits
  have hwords : packWords (shapes.map fun s => (ofBoxes s).words) instances =
      (pack (shapes.map ofBoxes) instances).words := by
    rw [← packWords_eq hfits, List.map_map]
    rfl
  rw [hwords]
  refine hparts.keeps (Packed.words_read (hparts.node_fits hpartFits hsizes.1 hsizes.2)
    (hparts.item_lt hpartFits) (fun root hroot => (hparts.root_le hroot).trans_lt hsizes.1) ?_)
    hhierarchies hfits fun h hh => ?_
  · -- every instance is an item
    have hcount : (ofBoxes (instances.map (·.box))).items.length = instances.length := by
      rw [length_items_ofBoxes, List.length_map]
    have hsum := hitems
    rw [List.map_cons, List.sum_cons, hcount] at hsum
    rw [pack_instanceCount]
    omega
  · obtain ⟨boxes, -, rfl⟩ := List.mem_map.1 hh
    exact items_ofBoxes_eq_nil_iff

/-- Boxes side by side. -/
def row (count : Nat) : List (Box Float32) :=
  (List.range count).map fun i => ⟨⟨Float32.ofNat i, 0, 0⟩, ⟨Float32.ofNat (i + 1), 1, 1⟩⟩

/-- A shape with branches is packed between shapes without items. -/
theorem packWords_row_keeps :
    ((row 2 :: [[], row 6, []]).map fun s => (ofBoxes s).nodes.size).sum = 6 ∧
      ((row 2 :: [[], row 6, []]).map fun s => (ofBoxes s).items.length).sum = 8 ∧
      (packWords ([[], row 6, []].map fun s => (ofBoxes s).words)
        ((row 2).map fun b => ⟨1, b, .identity⟩)).Keeps (ofBoxes (row 2))
        ([[], row 6, []].map ofBoxes) := by
  have hnodes : ((row 2 :: [[], row 6, []]).map fun s => (ofBoxes s).nodes.size).sum = 6 := by
    decide +kernel
  have hitems : ((row 2 :: [[], row 6, []]).map fun s => (ofBoxes s).items.length).sum = 8 := by
    simp [length_items_ofBoxes, row]
  refine ⟨hnodes, hitems,
    packWords_keeps [[], row 6, []] ((row 2).map fun b => ⟨1, b, .identity⟩) ?_ ?_⟩
  · rw [List.map_map]
    exact hnodes.trans_lt (by decide)
  · rw [List.map_map]
    exact hitems.trans_lt (by decide)

end Candela.Bvh
