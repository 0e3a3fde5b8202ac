import Candela.Proofs.Bvh.Subtrees
import Candela.Proofs.Geometry.Box
import Candela.Proofs.Scene.Stages

/-!
# The boxes of a shape's hierarchy enclose its triangles

The box of a node is the least one around the boxes of the items below it, and those below a child
are some of those below its parent. So a box reaches as far as that of every item below its node,
and lies inside the box of the node's parent (`Bvh.bounding_ofBoxesLimited`).

However shapes have been asked for, and whatever materials had been compiled each time, the ranges
of their triangles lie side by side (`ShapeTable.Reached.faces`). So every loaded shape has the
hierarchy of the triangles in its range, and the corners of a triangle lie in every box on the way
to a leaf that has it (`Geometry.Fills.encloses`).
-/

namespace Candela.Bvh

variable {boxes : List (Box Float32)} {limit : Nat}

/-- The boxes of laid-out nodes bound what is below them; items are known by the positions of their
boxes. -/
structure Bounding (boxes : List (Box Float32)) (nodes : Array Node) (items : List Nat) : Prop where
  /-- The box of a node reaches as far as that of every item below the node. -/
  covers : ∀ (i : Nat) node place, nodes[i]? = some node → HoldsBelow nodes i place →
    ∃ k b, items[place]? = some k ∧ boxes[k]? = some b ∧ node.box.Covers b
  /-- The box of a child lies inside that of its parent. -/
  inside : ∀ child parent, IsChild nodes child parent →
    ∃ c p, nodes[child]? = some c ∧ nodes[parent]? = some p ∧ c.box.Inside p.box

/-- A root without items has nothing to bound. -/
theorem bounding_empty : Bounding boxes #[.empty] [] where
  covers i node place hnode hheld := by
    obtain ⟨leaf, -, hholds⟩ := hheld
    exact absurd hholds not_holds_empty
  inside child parent hchild := absurd hchild not_isChild_empty

/-- The boxes of the tree of some items bound what is below them. -/
theorem Tree.bounding_build (limit : Nat) (boxes : List (Box Float32)) :
    Bounding boxes (build limit (itemsOf boxes)).layout (build limit (itemsOf boxes)).items where
  covers i node place hnode hheld := by
    obtain ⟨depth, hdepth⟩ := exists_atDepth (Array.getElem?_eq_some_iff.1 hnode).1
    obtain ⟨first, part, hstands⟩ := exists_stands hdepth
    obtain ⟨item, hitem, hplace⟩ := hstands.exists_item hheld
    have hbox := getElem?_of_mem_itemsOf (hstands.subperm.subset hitem)
    refine ⟨item.index, item.box, hplace, hbox, ?_⟩
    rw [hstands.box hnode]
    exact Box.covers_union (List.mem_map_of_mem hitem)
  inside child parent hchild := by
    have hparent : parent < (build limit (itemsOf boxes)).layout.size :=
      Nat.lt_trans (lt_of_isChild hchild) (isChild_lt_size hchild)
    have hp := Array.getElem?_eq_getElem hparent
    have hc := Array.getElem?_eq_getElem (isChild_lt_size hchild)
    obtain ⟨depth, hdepth⟩ := exists_atDepth hparent
    obtain ⟨first, part, hstands⟩ := exists_stands hdepth
    obtain ⟨first', part', hstands', hsub⟩ := hstands.of_isChild hchild
    refine ⟨_, _, hc, hp, ?_⟩
    rw [hstands'.box hc, hstands.box hp]
    exact Box.inside_union (List.map_subset _ hsub.subset)

/-- The boxes of a hierarchy bound what is below them, however deep it may be and whatever boxes it
is made of. -/
theorem bounding_ofBoxesLimited (limit : Nat) (boxes : List (Box Float32)) :
    Bounding boxes (ofBoxesLimited limit boxes).nodes (ofBoxesLimited limit boxes).items := by
  by_cases hempty : boxes = []
  · subst hempty
    exact bounding_empty
  · rw [ofBoxesLimited_eq hempty]
    exact Tree.bounding_build limit boxes

end Candela.Bvh

namespace Candela.Scene

variable {source : Mesh.Source} {t t' : ShapeTable} {m m' : Materials} {is : List Nat}
  {g : Geometry} {s : LoadedShape}

/-! ## Tables of shapes -/

/-- Nothing has been registered, or someone has asked for a shape, with any materials. -/
inductive ShapeTable.Reached (source : Mesh.Source) : ShapeTable → Prop where
  | start (shapes : List Shape) : Reached source (.ofShapes shapes)
  | ask {t t' : ShapeTable} {m m' : Materials} {name : String} {i : Nat} (h : Reached source t)
      (hask : t.index source m name = .ok (i, t', m')) : Reached source t'

/-- The ranges of the triangles of registered shapes lie side by side. -/
theorem ShapeTable.Reached.faces (h : t.Reached source) :
    Arena.Tiles 0 (t.registered.map (·.faces)) t.reserved.faces := by
  induction h with
  | start shapes => rfl
  | ask _ hask ih =>
    rcases index_cases hask with ⟨-, rfl, -⟩ | ⟨s, palette, header, -, -, -, -, hadd, -⟩
    · exact ih
    · obtain ⟨-, hregistered, hreserved⟩ := of_add hadd
      rw [hregistered, hreserved, List.map_append]
      exact ih.concat header.faces

/-- All entities ask for their shapes. -/
theorem ShapeTable.Reached.shapesOf (h : t.Reached source) {entities : List Entity}
    (hask : Scene.shapesOf source t m entities = .ok (is, t', m')) : t'.Reached source := by
  induction entities generalizing t m is with
  | nil =>
    cases hask
    exact h
  | cons e rest ih =>
    obtain ⟨⟨i, t₁, m₁⟩, hindex, hask⟩ := bind_eq_ok.1 hask
    obtain ⟨⟨js, t₂, m₂⟩, hrest, hpure⟩ := bind_eq_ok.1 hask
    cases pure_eq_ok.1 hpure
    exact ih (h.ask hindex) hrest

/-! ## Loaded shapes -/

/-- Every triangle of a shape stands in a leaf of the shape's hierarchy, and its corners lie in
every box on the way to such a leaf. -/
def Geometry.Encloses (g : Geometry) (s : LoadedShape) : Prop :=
  ∀ face < s.info.faces.length, ∃ triangle,
    g.triangle? (s.info.faces.offset + face) = some triangle ∧
    (∃ place, Bvh.HoldsBelow s.hierarchy.nodes 0 place ∧ s.hierarchy.items[place]? = some face) ∧
    ∀ leaf place node, Bvh.Holds s.hierarchy.nodes leaf place →
      s.hierarchy.items[place]? = some face → Bvh.OnWay s.hierarchy.nodes 0 leaf node →
      ∀ corner ∈ triangle.corners, node.box.Spans corner

/-- The hierarchy of the triangles in a shape's range encloses them. -/
theorem Geometry.Fills.encloses (hfills : g.Fills s) : g.Encloses s := by
  obtain ⟨triangles, hlength, htriangles, hhierarchy⟩ := hfills.hierarchy
  intro face hface
  have hlt : face < triangles.length := hlength ▸ hface
  have htriangle := List.getElem?_eq_getElem hlt
  refine ⟨triangles[face], (htriangles face hlt).trans htriangle, ?_, ?_⟩
  · have hmem : face ∈ s.hierarchy.items := by
      rw [hhierarchy, Bvh.mem_items_ofBoxes, List.length_map]
      exact hlt
    obtain ⟨place, hplace⟩ := List.mem_iff_getElem?.1 hmem
    obtain ⟨leaf, hleaf, hholds⟩ :=
      (Bvh.exists_holds_iff s.hierarchy).2 (List.getElem?_eq_some_iff.1 hplace).1
    exact ⟨place, ⟨leaf, Bvh.reaches_of_lt_size _ hleaf, hholds⟩, hplace⟩
  · intro leaf place node hholds hplace hway corner hcorner
    obtain ⟨i, -, hreach, hnode⟩ := hway
    rw [hhierarchy] at hholds hplace hreach hnode
    obtain ⟨k, b, hk, hb, hcovers⟩ := (Bvh.bounding_ofBoxesLimited _ _).covers i node place hnode
      ⟨leaf, hreach, hholds⟩
    obtain rfl : k = face := Option.some.inj (hk.symm.trans hplace)
    rw [List.getElem?_map, htriangle] at hb
    obtain rfl := Option.some.inj hb
    exact hcovers.spans (Box.spans_ofPoints hcorner)

/-- Boxes bound what is below them: in every hierarchy that is built of boxes, and so in the
hierarchies of all shapes that are loaded, whose triangles they enclose. -/
theorem boxes_bound :
    (∀ (limit : Nat) (boxes : List (Box Float32)), ∃ nodes items,
      Bvh.InPlace.build? limit boxes.toArray = some (nodes, items) ∧
        Bvh.Bounding boxes nodes items.toList) ∧
    ∀ (source : Mesh.Source) (t : ShapeTable) (g : Geometry), t.Reached source →
      t.load source = .ok g → ∀ s ∈ g.shapes, g.Encloses s := by
  constructor
  · intro limit boxes
    exact ⟨_, _, Bvh.InPlace.build?_eq limit boxes, Bvh.bounding_ofBoxesLimited limit boxes⟩
  · intro source t g hreached hload s hs
    obtain ⟨parts, hloads⟩ := ShapeTable.of_load hload
    exact (hloads.fills hreached.faces hs).encloses

/-- The triangles of the square are enclosed. -/
theorem squares_boxes_bound :
    ∃ (t : ShapeTable) (g : Geometry), t.Reached squareMesh ∧ t.load squareMesh = .ok g ∧
      ∃ s ∈ g.shapes, s.info.faces.length = 2 ∧ g.Encloses s := by
  obtain ⟨a, ha⟩ := assemble_squares
  obtain ⟨x, hmake⟩ := exists_stages ha
  have hreached := (ShapeTable.Reached.start squares.shapes).shapesOf hmake.shapes
  have hcounts : (squares.assemble squareMesh).toOption.map (fun a =>
      a.geometry.shapes.toList.map (·.info.faces.length)) = some [2, 0] := by
    simp only [assemble, Lighting.Draft.ofLights, sort_squares]
    decide +kernel
  rw [ha] at hcounts
  have hcounts : a.geometry.shapes.toList.map (·.info.faces.length) = [2, 0] :=
    Option.some.inj hcounts
  have hmem : 2 ∈ a.geometry.shapes.toList.map (·.info.faces.length) :=
    hcounts ▸ List.mem_cons_self
  obtain ⟨s, hs, hcount⟩ := List.mem_map.1 hmem
  have hs := Array.mem_toList_iff.1 hs
  exact ⟨x.table, a.geometry, hreached, hmake.geometry, s, hs, hcount,
    boxes_bound.2 squareMesh x.table a.geometry hreached hmake.geometry s hs⟩

end Candela.Scene
