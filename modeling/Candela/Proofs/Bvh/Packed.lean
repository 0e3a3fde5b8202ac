import Mathlib.Data.List.Induction
import Candela.Proofs.Arena
import Candela.Proofs.Bvh.Search

/-!
# Packed hierarchies can be read

Packing puts the nodes and items of one hierarchy after those of others and moves the places that
they name along. So packed arrays are made of parts side by side, one for every hierarchy
(`Packed.MadeOf`): what has been packed stays where it is (`Packed.Contains.append`), and what is
packed next fills the places that were free (`Packed.contains_append`). A part is read as the
hierarchy that it comes from (`Packed.Contains.holds`), so a packed scene holds the hierarchy of its
instances at its beginning and that of every shape at the shape's root (`holds_pack`).
-/

namespace Candela.Bvh

variable {nodes nodes' : Array Node} {slot first root : Nat} {t : Tree} {p : Packed} {h : Bvh}

/-- A tree that can be read is moved along with the nodes. -/
theorem Laid.shift (hlaid : Laid nodes slot first t) {root start : Nat}
    (hnodes : ∀ (i : Nat) node, nodes[i]? = some node →
      nodes'[i + root]? = some (node.shift root start)) :
    Laid nodes' (slot + root) (first + start) t := by
  induction hlaid with
  | leaf hnode => exact .leaf (hnodes _ _ hnode)
  | @branch slot first left b l r hnode _ _ ihl ihr =>
    refine .branch (hnodes _ _ hnode) ihl ?_
    rwa [Nat.add_right_comm left, Nat.add_right_comm first] at ihr

/-- A laid-out tree can be read. -/
theorem Tree.laid_layout (t : Tree) : Laid t.layout 0 0 t :=
  laid_of_placed t 0 0 1 fun _ he => getElem?_layout_iff.2 he

/-! ## Parts -/

namespace Packed

/-- A hierarchy, and the ranges of its nodes and of its items in packed arrays. -/
structure Part where
  hierarchy : Bvh
  nodes : Arena.Range
  items : Arena.Range

/-- The nodes and the items of a hierarchy stand in packed arrays. -/
structure Contains (p : Packed) (part : Part) : Prop where
  nodes_length : part.nodes.length = part.hierarchy.nodes.size
  items_length : part.items.length = part.hierarchy.items.length
  /-- The nodes have been moved along. -/
  node : ∀ (i : Nat) node, part.hierarchy.nodes[i]? = some node →
    p.nodes[i + part.nodes.offset]? = some (node.shift part.nodes.offset part.items.offset)
  item : ∀ (i : Nat) (x : Nat), part.hierarchy.items[i]? = some x →
    p.items[part.items.offset + i]? = some x

variable {part : Part} {parts : List Part}

/-- What has been packed stays where it is while a hierarchy is put after it. -/
theorem Contains.append (hpart : p.Contains part) (h : Bvh) : (p.append h).Contains part where
  nodes_length := hpart.nodes_length
  items_length := hpart.items_length
  node i node hnode := by
    have hold := hpart.node i node hnode
    rw [Packed.append, Array.getElem?_append_left (Array.getElem?_eq_some_iff.1 hold).1]
    exact hold
  item i x hx := by
    have hold := hpart.item i x hx
    rw [Packed.append, Array.getElem?_append_left (Array.getElem?_eq_some_iff.1 hold).1]
    exact hold

/-- The part that comes next. -/
def nextPart (p : Packed) (h : Bvh) : Part where
  hierarchy := h
  nodes := ⟨p.nodes.size, h.nodes.size⟩
  items := ⟨p.items.size, h.items.length⟩

/-- A hierarchy that is packed fills the places that were free. -/
theorem contains_append (p : Packed) (h : Bvh) : (p.append h).Contains (p.nextPart h) where
  nodes_length := rfl
  items_length := rfl
  node i node hnode := by
    show (p.nodes ++ h.nodes.map (Node.shift p.nodes.size p.items.size))[i + p.nodes.size]? = _
    rw [Array.getElem?_append_right (Nat.le_add_left _ _), Nat.add_sub_cancel, Array.getElem?_map]
    exact congrArg (Option.map _) hnode
  item i x hx := by
    show (p.items ++ h.items.toArray)[p.items.size + i]? = some x
    rw [Array.getElem?_append_right (Nat.le_add_right _ _), Nat.add_sub_cancel_left,
      List.getElem?_toArray]
    exact hx

/-- A part can be read. -/
theorem Contains.holds (hpart : p.Contains part) :
    p.Holds part.nodes.offset part.items.offset part.hierarchy := by
  obtain ⟨⟨_ | t⟩, nodes, items⟩ := part
  · refine .empty ?_
    have hnode := hpart.node 0 .empty rfl
    rwa [Nat.zero_add] at hnode
  · refine .tree ?_ ?_ hpart.item
    · have hlaid := t.laid_layout.shift hpart.node
      rwa [Nat.zero_add, Nat.zero_add] at hlaid
    · -- the last node of the tree is there
      have hlast : 2 * t.branchCount < t.layout.size := by
        rw [Tree.size_layout]
        exact Nat.lt_succ_self _
      have hnode := hpart.node _ _ (Array.getElem?_eq_getElem hlast)
      exact Nat.lt_of_le_of_lt (Nat.le_add_right _ _) (Array.getElem?_eq_some_iff.1 hnode).1

/-- Packed arrays are made of parts side by side. The root of the first part is the first node;
those of the others are listed. -/
structure MadeOf (p : Packed) (parts : List Part) : Prop where
  nodes : Arena.Tiles 0 (parts.map (·.nodes)) p.nodes.size
  items : Arena.Tiles 0 (parts.map (·.items)) p.items.size
  roots : parts.map (·.nodes.offset) = 0 :: p.roots.toList
  contains : ∀ part ∈ parts, p.Contains part

/-- A shape that is packed is one more part. -/
theorem MadeOf.appendShape (hparts : p.MadeOf parts) (h : Bvh) :
    (p.appendShape h).MadeOf (parts ++ [p.nextPart h]) where
  nodes := by
    have hnodes := hparts.nodes.concat h.nodes.size
    simpa [Packed.appendShape, Packed.append, nextPart] using hnodes
  items := by
    have hitems := hparts.items.concat h.items.length
    simpa [Packed.appendShape, Packed.append, nextPart] using hitems
  roots := by simp [Packed.appendShape, nextPart, hparts.roots]
  contains := by
    intro part hpart
    -- the roots play no part in what is there
    have hsame (hpart : (p.append h).Contains part) : (p.appendShape h).Contains part :=
      ⟨hpart.nodes_length, hpart.items_length, hpart.node, hpart.item⟩
    rcases List.mem_append.1 hpart with hold | hnew
    · exact hsame ((hparts.contains part hold).append h)
    · obtain rfl := List.mem_singleton.1 hnew
      exact hsame (p.contains_append h)

/-- The parts are known by their places. -/
theorem MadeOf.getElem? (hparts : p.MadeOf parts) {k : Nat} {part : Part}
    (hk : parts[k]? = some part) :
    (0 :: p.roots.toList)[k]? = some part.nodes.offset ∧ p.Contains part := by
  rw [← hparts.roots, List.getElem?_map, hk]
  exact ⟨rfl, hparts.contains part (List.mem_of_getElem? hk)⟩

end Packed

/-- A packed scene is made of the hierarchy of its instances and those of its shapes. -/
theorem exists_madeOf (shapes : List Bvh) (instances : List Instance) :
    ∃ parts, (pack shapes instances).MadeOf parts ∧
      parts.map (·.hierarchy) = ofBoxes (instances.map (·.box)) :: shapes := by
  induction shapes using List.reverseRecOn with
  | nil =>
    generalize hstart : (⟨#[], #[], #[], instances.length⟩ : Packed) = start
    generalize htop : ofBoxes (instances.map (·.box)) = top
    have hpack : pack [] instances = start.append top := by
      rw [← hstart, ← htop]
      rfl
    rw [hpack]
    refine ⟨[start.nextPart top], ⟨?_, ?_, ?_, ?_⟩, rfl⟩
    · simp [Arena.Tiles, Arena.Range.stop, Packed.nextPart, Packed.append, ← hstart]
    · simp [Arena.Tiles, Arena.Range.stop, Packed.nextPart, Packed.append, ← hstart]
    · simp [Packed.nextPart, Packed.append, ← hstart]
    · intro part hpart
      obtain rfl := List.mem_singleton.1 hpart
      exact start.contains_append top
  | append_singleton shapes h ih =>
    obtain ⟨parts, hparts, hhierarchies⟩ := ih
    have hpack : pack (shapes ++ [h]) instances = (pack shapes instances).appendShape h := by
      simp [pack]
    rw [hpack]
    refine ⟨parts ++ [(pack shapes instances).nextPart h], hparts.appendShape h, ?_⟩
    rw [List.map_append, hhierarchies]
    rfl

/-- Packing keeps the number of instances. -/
theorem pack_instanceCount (shapes : List Bvh) (instances : List Instance) :
    (pack shapes instances).instanceCount = instances.length := by
  rw [pack]
  generalize hstart : Packed.append _ _ = start
  have hcount : start.instanceCount = instances.length := by rw [← hstart, Packed.append]
  clear hstart
  induction shapes generalizing start with
  | nil => exact hcount
  | cons h rest ih => exact ih (start.appendShape h) hcount

/-! ## Shapes and their roots -/

/-- Packed hierarchies hold those of some shapes, known by their places. -/
structure Packed.Stores (p : Packed) (shapes : List Bvh) : Prop where
  size : p.roots.size = shapes.length
  holds : ∀ (k : Nat) h, shapes[k]? = some h →
    ∃ root first, p.roots[k]? = some root ∧ p.Holds root first h

/-- What is below the root of a shape is its hierarchy. -/
theorem Packed.Stores.of_root {shapes : List Bvh} {k : Nat} (hstores : p.Stores shapes)
    (hroot : p.roots[k]? = some root) :
    ∃ h first, shapes[k]? = some h ∧ p.Holds root first h := by
  have hk : k < shapes.length := hstores.size ▸ (Array.getElem?_eq_some_iff.1 hroot).1
  obtain ⟨root', first, hroot', hholds⟩ := hstores.holds k _ (List.getElem?_eq_getElem hk)
  cases hroot.symm.trans hroot'
  exact ⟨_, first, List.getElem?_eq_getElem hk, hholds⟩

/-- A packed scene holds the hierarchy of its instances and those of its shapes. -/
theorem holds_pack (shapes : List Bvh) (instances : List Instance) :
    (pack shapes instances).Holds 0 0 (ofBoxes (instances.map (·.box))) ∧
      (pack shapes instances).Stores shapes := by
  obtain ⟨parts, hparts, hhierarchies⟩ := exists_madeOf shapes instances
  generalize pack shapes instances = p at hparts
  obtain _ | ⟨top, parts⟩ := parts
  · cases hhierarchies
  obtain ⟨htop, rfl⟩ : top.hierarchy = _ ∧ parts.map (·.hierarchy) = shapes :=
    List.cons.inj hhierarchies
  obtain ⟨hfirst, hroots⟩ : top.nodes.offset = 0 ∧ _ := List.cons.inj hparts.roots
  refine ⟨?_, ?_, fun k h hk => ?_⟩
  · have hholds := (hparts.contains top List.mem_cons_self).holds
    have hitems : top.items.offset = 0 := hparts.items.1
    rwa [hitems, hfirst, htop] at hholds
  · rw [← Array.length_toList, ← hroots, List.length_map, List.length_map]
  · rw [List.getElem?_map, Option.map_eq_some_iff] at hk
    obtain ⟨part, hpart, rfl⟩ := hk
    obtain ⟨hroot, hcontains⟩ := hparts.getElem? (k := k + 1) hpart
    rw [List.getElem?_cons_succ, Array.getElem?_toList] at hroot
    exact ⟨_, _, hroot, hcontains.holds⟩

end Candela.Bvh
