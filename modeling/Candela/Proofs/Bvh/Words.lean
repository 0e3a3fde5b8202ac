import Candela.Bvh.Record
import Candela.Capacity
import Candela.Proofs.Bvh.Parts

/-!
# Packed words stand for packed hierarchies

A node whose numbers fit in words is told apart from its words (`Node.record_node`), and moving the
words along moves the node (`Node.record_rebase`): the one word that a leaf and a branch use
differently is moved by the items of a leaf and by the nodes of a branch, and a root without items
is left as it is. So packing words gives the words of what is packed (`packWords_eq`), and these are
read as what has been packed as long as all nodes and items can be counted in words
(`Packed.words_read`).
-/

namespace Candela.Bvh

variable {nodes : Array Node} {items : Array Nat} {p : Packed} {h : Bvh} {n : Node} {t : Tree}
  {slot first root : Nat}

/-! ## Nodes -/

/-- A word holds a small number as it is. -/
theorem toNat_toUInt32 {n : Nat} (hn : n < wordValues) : n.toUInt32.toNat = n :=
  UInt32.toNat_ofNat_of_lt' hn

/-- A small number is zero if its word is. -/
theorem toUInt32_ne_zero {n : Nat} (hpos : 0 < n) (hn : n < wordValues) : n.toUInt32 ≠ 0 := by
  intro hzero
  have hnat := congrArg UInt32.toNat hzero
  rw [toNat_toUInt32 hn] at hnat
  exact Nat.ne_of_gt hpos hnat

/-- The words of a node stand for it. -/
def Node.Fits : Node → Prop
  | empty => True
  | branch _ left => 0 < left ∧ left < wordValues
  | leaf _ first count => first < wordValues ∧ 0 < count ∧ count < wordValues

namespace Node

/-- Whether a node is the root of a hierarchy without items. -/
def isEmpty : Node → Bool
  | empty => true
  | _ => false

/-- Only the words of a leaf are those of a leaf. -/
theorem isLeaf_record (hfits : n.Fits) : n.record.isLeaf = n.isLeaf := by
  cases n with
  | empty => rfl
  | branch => rfl
  | leaf b first count =>
    have hcount := toUInt32_ne_zero hfits.2.1 hfits.2.2
    exact decide_eq_true (UInt32.pos_iff_ne_zero.2 hcount)

/-- Only the words of a root without items are those of one. -/
theorem isEmpty_record (hfits : n.Fits) : n.record.isEmpty = n.isEmpty := by
  cases n with
  | empty => rfl
  | branch b left =>
    have hleft := toUInt32_ne_zero hfits.1 hfits.2
    simp [record, Record.isEmpty, isEmpty, hleft]
  | leaf b first count =>
    have hcount := toUInt32_ne_zero hfits.2.1 hfits.2.2
    simp [record, Record.isEmpty, isEmpty, hcount]

/-- The words of a node are read as the node. -/
theorem record_node (hfits : n.Fits) : n.record.node = n := by
  rw [Record.node, isLeaf_record hfits, isEmpty_record hfits]
  cases n with
  | empty => rfl
  | branch b left => simp [record, isLeaf, isEmpty, toNat_toUInt32 hfits.2, box]
  | leaf b first count =>
    simp [record, isLeaf, toNat_toUInt32 hfits.1, toNat_toUInt32 hfits.2.2, box]

/-- Moving the words of a node along moves the node along. -/
theorem record_rebase (hfits : n.Fits) (root start : Nat) :
    n.record.rebase root.toUInt32 start.toUInt32 = (n.shift root start).record := by
  rw [Record.rebase, isLeaf_record hfits, isEmpty_record hfits]
  cases n with
  | empty => rfl
  | branch b left => simp [record, isLeaf, isEmpty, shift, box]
  | leaf b first count => simp [record, isLeaf, shift, box]

/-- A node fits if it is no place left to be filled and all that it names can be counted. -/
theorem fits_of_getElem? {i : Nat} (hnode : nodes[i]? = some n) (hfilled : n = empty ∨ n.Filled)
    (hchild : ∀ child, IsChild nodes child i → 0 < child ∧ child < wordValues)
    (hplace : ∀ place, Holds nodes i place → place + 1 < wordValues) : n.Fits := by
  cases n with
  | empty => exact trivial
  | branch b left => exact hchild left ⟨b, left, hnode, .inl rfl⟩
  | leaf b first count =>
    have hcount : 0 < count := hfilled.resolve_left nofun
    have hlast := hplace (first + count - 1) ⟨b, first, count, hnode, by omega, by omega⟩
    exact ⟨by omega, hcount, by omega⟩

end Node

/-! ## Hierarchies -/

/-- The words of a hierarchy stand for it. -/
structure Fits (h : Bvh) : Prop where
  node : ∀ node ∈ h.nodes, node.Fits
  item : ∀ item ∈ h.items, item < wordValues

/-- A hierarchy of boxes fits in words as long as its nodes and items can be counted. -/
theorem fits_ofBoxes {boxes : List (Box Float32)} (hnodes : (ofBoxes boxes).nodes.size < wordValues)
    (hitems : (ofBoxes boxes).items.length < wordValues) : (ofBoxes boxes).Fits := by
  rcases eq_or_ne boxes [] with rfl | hboxes
  · refine ⟨fun node hnode => ?_, nofun⟩
    obtain rfl : node = .empty := by simpa [ofBoxes, ofBoxesLimited, Bvh.nodes] using hnode
    exact trivial
  · have hproper : Proper maxDepth boxes.length (ofBoxes boxes).nodes (ofBoxes boxes).items :=
      proper_ofBoxesLimited hboxes
    have hlength := hproper.items_perm.length_eq
    rw [List.length_range] at hlength
    refine ⟨fun node hnode => ?_, fun item hitem => ?_⟩
    · obtain ⟨i, hi, rfl⟩ := Array.mem_iff_getElem.1 hnode
      have hread := Array.getElem?_eq_getElem hi
      obtain ⟨node, hnode', hfilled⟩ := hproper.filled i hi
      cases hread.symm.trans hnode'
      refine Node.fits_of_getElem? hread (.inr hfilled) (fun child hchild => ?_)
        fun place hplace => ?_
      · obtain ⟨hlt, hsize⟩ := hproper.child_lt child i hchild
        omega
      · have hlt := hproper.place_lt i place hplace
        omega
    · have hlt := List.mem_range.1 (hproper.items_perm.subset hitem)
      omega

/-! ## Packing -/

/-- Putting the words of a hierarchy after others gives the words of the hierarchy put after
them. -/
theorem Words.append_words (p : Packed) (hfits : h.Fits) :
    p.words.toWords.append h.words = (p.append h).words.toWords := by
  have hrebase : h.words.nodes.map (Record.rebase p.nodes.size.toUInt32 p.items.size.toUInt32) =
      (h.nodes.map (Node.shift p.nodes.size p.items.size)).map Node.record := by
    rw [Bvh.words, Array.map_map, Array.map_map]
    exact Array.map_congr_left fun node hnode => Node.record_rebase (hfits.node node hnode) _ _
  have hitems : h.words.items = h.items.toArray.map Nat.toUInt32 := List.map_toArray.symm
  simp only [Words.append, Packed.words, Packed.append, Array.map_append, Array.size_map]
  rw [hrebase, hitems]

/-- Packing the words of a shape gives the words of the shape packed. -/
theorem PackedWords.appendShape_words (p : Packed) (hfits : h.Fits) :
    p.words.appendShape h.words = (p.appendShape h).words := by
  rw [PackedWords.appendShape, Words.append_words p hfits]
  simp [Packed.words, Packed.appendShape, Packed.append]

/-- Packing the words of shapes gives the words of the shapes packed. -/
theorem PackedWords.foldl_appendShape_words {shapes : List Bvh} (hfits : ∀ h ∈ shapes, h.Fits)
    (p : Packed) :
    (shapes.map Bvh.words).foldl .appendShape p.words = (shapes.foldl .appendShape p).words := by
  induction shapes generalizing p with
  | nil => rfl
  | cons h rest ih =>
    obtain ⟨hh, hrest⟩ := List.forall_mem_cons.1 hfits
    rw [List.map_cons, List.foldl_cons, List.foldl_cons, appendShape_words p hh]
    exact ih hrest _

/-- Packing words gives the words of what is packed. -/
theorem packWords_eq {shapes : List Bvh} {instances : List Instance}
    (hfits : ∀ h ∈ ofBoxes (instances.map (·.box)) :: shapes, h.Fits) :
    packWords (shapes.map Bvh.words) instances = (pack shapes instances).words := by
  obtain ⟨htop, hshapes⟩ := List.forall_mem_cons.1 hfits
  let start : Packed := ⟨#[], #[], #[], instances.length⟩
  have hwords : start.words.toWords = ⟨#[], #[]⟩ := by simp [start, Packed.words]
  have hstart := Words.append_words start htop
  rw [hwords] at hstart
  rw [pack, ← PackedWords.foldl_appendShape_words hshapes, packWords, hstart]
  simp [start, Packed.words, Packed.append]

/-! ## Reading -/

/-- A node that fits is no place left to be filled. -/
theorem Node.Fits.filled_shift (hfits : n.Fits) (root start : Nat) :
    n.shift root start = .empty ∨ (n.shift root start).Filled := by
  cases n with
  | empty => exact .inl rfl
  | branch => exact .inr trivial
  | leaf => exact .inr hfits.2.1

/-- The children of a node that fits are not the first node. -/
theorem Node.Fits.child_pos {i child : Nat} (hfits : n.Fits) (hnode : nodes[i]? = some n)
    (hchild : IsChild nodes child i) : 0 < child := by
  obtain ⟨b, left, hbranch, hchild⟩ := hchild
  cases hnode.symm.trans hbranch
  have hleft : 0 < left := hfits.1
  omega

namespace Packed

variable {parts : List Part}

/-- The nodes of packed arrays fit in words if all nodes and all places of items can be counted. -/
theorem MadeOf.node_fits (hparts : p.MadeOf parts) (hfits : ∀ part ∈ parts, part.hierarchy.Fits)
    (hnodes : p.nodes.size < wordValues) (hitems : p.items.size < wordValues) :
    ∀ node ∈ p.nodes, node.Fits := by
  intro node hnode
  obtain ⟨i, hi, rfl⟩ := Array.mem_iff_getElem.1 hnode
  have hread := Array.getElem?_eq_getElem hi
  -- the node is one of a part, moved along
  obtain ⟨k, ⟨root, hroot, hreach⟩, -⟩ := hparts.existsUnique_reaches hi
  obtain ⟨part, hk, rfl, hpart⟩ := hparts.exists_part hroot
  obtain ⟨j, hj, rfl⟩ := hpart.mem_nodes_iff.1 (hpart.reaches_iff.1 hreach)
  obtain ⟨n, hn, hmoved⟩ := hpart.getElem? hj
  have hold := (hfits part (List.mem_of_getElem? hk)).node n (Array.mem_of_getElem? hn)
  have hsame := Option.some.inj (hread.symm.trans hmoved)
  refine Node.fits_of_getElem? hread (hsame ▸ hold.filled_shift _ _) (fun child hchild => ?_)
    fun place hplace => ?_
  · obtain ⟨c, hc, rfl⟩ := (hpart.isChild_iff hj).1 hchild
    have hpos := hold.child_pos hn hc
    have hlt := hparts.lt_of_reaches hroot (hreach.tail hchild)
    omega
  · have hlt := hparts.lt_of_holdsBelow hroot ⟨_, hreach, hplace⟩
    omega

/-- The items of packed arrays are those of the parts. -/
theorem MadeOf.item_lt (hparts : p.MadeOf parts) (hfits : ∀ part ∈ parts, part.hierarchy.Fits) :
    ∀ item ∈ p.items, item < wordValues := by
  intro item hitem
  obtain ⟨s, hs, rfl⟩ := Array.mem_iff_getElem.1 hitem
  obtain ⟨k, ⟨root, hroot, hheld⟩, -⟩ := hparts.existsUnique_holdsBelow hs
  obtain ⟨part, hk, rfl, hpart⟩ := hparts.exists_part hroot
  obtain ⟨hlo, hhi⟩ := hpart.holdsBelow_iff.1 hheld
  rw [Arena.Range.stop, hpart.items_length] at hhi
  have hj : s - part.items.offset < part.hierarchy.items.length := by omega
  have hread := hpart.item _ _ (List.getElem?_eq_getElem hj)
  rw [Nat.add_sub_cancel' hlo, Array.getElem?_eq_getElem hs] at hread
  rw [Option.some.inj hread]
  exact (hfits part (List.mem_of_getElem? hk)).item _ (List.getElem_mem hj)

/-- The words of a packed scene are read as the packed scene. -/
theorem words_read (hnodes : ∀ node ∈ p.nodes, node.Fits)
    (hitems : ∀ item ∈ p.items, item < wordValues) (hroots : ∀ root ∈ p.roots, root < wordValues) (hcount : p.instanceCount < wordValues) :
    p.words.read = p := by
  have hwords {ns : Array Nat} (hns : ∀ n ∈ ns, n < wordValues) :
      (ns.map Nat.toUInt32).map UInt32.toNat = ns := by
    rw [Array.map_map]
    exact (Array.map_congr_left fun n hn => toNat_toUInt32 (hns n hn)).trans (Array.map_id _)
  have hrecords : (p.nodes.map Node.record).map Record.node = p.nodes := by
    rw [Array.map_map]
    exact (Array.map_congr_left fun n hn => Node.record_node (hnodes n hn)).trans (Array.map_id _)
  simp only [PackedWords.read, Words.readNodes, Words.readItems, words, hrecords, hwords hitems,
    hwords hroots, toNat_toUInt32 hcount]

end Packed

end Candela.Bvh
