import Candela.Bvh.Device
import Candela.Proofs.Bvh.Packed

/-!
# How many nodes a walk keeps in mind

A walk takes a node from its stack and puts at most two there, the children of the node. `Stacks`
are the stacks that it may come to whichever boxes are entered, so that nothing is said about rays.
A node with `n` others under it on the stack has at least `n` levels above it: what is below it has
so many levels less than the whole hierarchy (`Pending`), and this is what a step keeps
(`Pending.of_enter`). So there is never more than one node for each level and one more, and since
hierarchies of boxes have at most `maxDepth` levels below their roots, the device always has room
for both children of a node (`pack_walks_bounded`).
-/

namespace Candela.Bvh

variable {σ : Type} {nodes : Array Node} {i slot first root left levels levels' : Nat}
  {rest stack : List Nat} {box : Box Float32} {t : Tree} {h : Bvh} {p : Packed}

/-! ## Stacks -/

/-- The stacks that a walk below a node may come to, whichever boxes are entered. -/
inductive Stacks (nodes : Array Node) (root : Nat) : List Nat → Prop where
  | start : Stacks nodes root [root]
  /-- A node is passed over, or its items are looked at. -/
  | pass {i : Nat} {rest : List Nat} (h : Stacks nodes root (i :: rest)) : Stacks nodes root rest
  /-- A node is entered. -/
  | enter {i left : Nat} {rest : List Nat} {box : Box Float32} (h : Stacks nodes root (i :: rest))
      (hnode : nodes[i]? = some (.branch box left)) :
      Stacks nodes root ((left + 1) :: left :: rest)

/-- A step leads from such a stack to such a stack. -/
theorem Stacks.step {w : Walk σ} (h : Stacks nodes root w.stack) (rule : Walk.Rule σ) :
    Stacks nodes root (w.step nodes rule).stack := by
  obtain ⟨_ | ⟨i, rest⟩, s⟩ := w
  · exact h
  · unfold Walk.step
    dsimp only
    split
    · next hnode =>
      split
      · exact h.enter hnode
      · exact h.pass
    · split <;> exact h.pass
    · exact h.pass
    · exact h.pass

/-- A walk only comes to such stacks. -/
theorem Stacks.run {w : Walk σ} (h : Stacks nodes root w.stack) (rule : Walk.Rule σ) (n : Nat) :
    Stacks nodes root (Walk.run nodes rule n w).stack := by
  induction n generalizing w with
  | zero => exact h
  | succ n ih =>
    rw [Walk.run]
    split
    · exact h
    · exact ih (h.step rule)

/-! ## Levels -/

/-- There are no more than so many levels below a node. -/
def Shallow (nodes : Array Node) : (levels i : Nat) → Prop
  | 0, i => ∀ box left, nodes[i]? ≠ some (.branch box left)
  | levels + 1, i => ∀ box left, nodes[i]? = some (.branch box left) →
      Shallow nodes levels left ∧ Shallow nodes levels (left + 1)

theorem Shallow.mono (h : Shallow nodes levels i) (hle : levels ≤ levels') :
    Shallow nodes levels' i := by
  induction levels generalizing i levels' with
  | zero =>
    cases levels' with
    | zero => exact h
    | succ => exact fun box left hnode => absurd hnode (h box left)
  | succ levels ih =>
    obtain ⟨levels', rfl⟩ := Nat.exists_eq_add_one_of_ne_zero (Nat.ne_zero_of_lt hle)
    intro box left hnode
    obtain ⟨hleft, hright⟩ := h box left hnode
    exact ⟨ih hleft (Nat.le_of_succ_le_succ hle), ih hright (Nat.le_of_succ_le_succ hle)⟩

/-- A tree that can be read has the levels of the tree. -/
theorem Laid.shallow (hlaid : Laid nodes slot first t) : Shallow nodes t.depth slot := by
  induction hlaid with
  | leaf hnode =>
    intro box left hbranch
    cases hnode.symm.trans hbranch
  | branch hnode _ _ ihl ihr =>
    intro box left hbranch
    cases hnode.symm.trans hbranch
    exact ⟨ihl.mono (Nat.le_max_left _ _), ihr.mono (Nat.le_max_right _ _)⟩

/-- So has a packed hierarchy. -/
theorem Packed.Holds.shallow (hholds : p.Holds root first h) : Shallow p.nodes h.depth root := by
  cases hholds with
  | empty hnode =>
    intro box left hbranch
    cases hnode.symm.trans hbranch
  | tree hlaid => exact hlaid.shallow

/-! ## Stacks and levels -/

/-- Below every node on a stack there are so many levels less as there are nodes under it. -/
inductive Pending (nodes : Array Node) (levels : Nat) : List Nat → Prop where
  | nil : Pending nodes levels []
  | cons {i below : Nat} {rest : List Nat} (hnode : Shallow nodes below i)
      (hbelow : below + rest.length ≤ levels) (hrest : Pending nodes levels rest) :
      Pending nodes levels (i :: rest)

/-- There is at most one node for each level, and one more. -/
theorem Pending.length_le (h : Pending nodes levels stack) : stack.length ≤ levels + 1 := by
  cases h with
  | nil => exact Nat.zero_le _
  | cons _ hbelow _ =>
    rw [List.length_cons]
    omega

/-- The children of a node have one level less below them, and there is one node more under the
right one. -/
theorem Pending.of_enter (h : Pending nodes levels (i :: rest))
    (hnode : nodes[i]? = some (.branch box left)) :
    Pending nodes levels ((left + 1) :: left :: rest) := by
  cases h with
  | @cons _ below _ hshallow hbelow hrest =>
    cases below with
    | zero => exact absurd hnode (hshallow box left)
    | succ below =>
      obtain ⟨hleft, hright⟩ := hshallow box left hnode
      refine .cons hright ?_ (.cons hleft ?_ hrest)
      · rw [List.length_cons]
        omega
      · omega

/-- This is so of all stacks of a walk below a node. -/
theorem Stacks.pending (h : Stacks nodes root stack) (hroot : Shallow nodes levels root) :
    Pending nodes levels stack := by
  induction h with
  | start => exact .cons hroot (Nat.le_refl _) .nil
  | pass _ ih =>
    cases ih with
    | cons _ _ hrest => exact hrest
  | enter _ hnode ih => exact ih.of_enter hnode

/-! ## Room -/

/-- A step has room for what it puts on the stack, if a node that is entered has room for its
children. -/
theorem Walk.stepWithin_eq {room : Nat} {w : Walk σ}
    (hroom : ∀ i rest box left, w.stack = i :: rest → nodes[i]? = some (.branch box left) →
      rest.length + 2 ≤ room) (rule : Walk.Rule σ) :
    w.stepWithin room nodes rule = w.step nodes rule := by
  obtain ⟨_ | ⟨i, rest⟩, s⟩ := w
  · rfl
  · unfold Walk.stepWithin Walk.step
    cases hnode : nodes[i]? with
    | none => simp only [hnode]
    | some node =>
      cases node with
      | branch box left => simp only [hnode, if_pos (hroom i rest box left rfl hnode)]
      | empty | leaf => simp only [hnode]

/-- So has a walk, if this is so of all its stacks. -/
theorem Walk.runWithin_eq {room : Nat}
    (hroom : ∀ i rest box left, Stacks nodes root (i :: rest) →
      nodes[i]? = some (.branch box left) → rest.length + 2 ≤ room)
    {w : Walk σ} (h : Stacks nodes root w.stack) (rule : Walk.Rule σ) (n : Nat) :
    Walk.runWithin room nodes rule n w = Walk.run nodes rule n w := by
  induction n generalizing w with
  | zero => rfl
  | succ n ih =>
    have hstep : w.stepWithin room nodes rule = w.step nodes rule :=
      Walk.stepWithin_eq (fun i rest box left hstack => hroom i rest box left (hstack ▸ h)) rule
    rw [Walk.runWithin, Walk.run, hstep, ih (h.step rule)]

/-- Walks below the root of a hierarchy have room on the device. -/
structure WalksBounded (nodes : Array Node) (root : Nat) (h : Bvh) : Prop where
  /-- Whichever boxes are entered, there is at most one node for each level of the hierarchy on the
  stack, and one more. -/
  length_le : ∀ stack, Stacks nodes root stack → stack.length ≤ h.depth + 1
  /-- This is less than the device has room for. -/
  length_lt : h.depth + 1 < stackSize
  /-- After a node has been taken from the stack, there is room for its children. -/
  room : ∀ i rest box left, Stacks nodes root (i :: rest) → nodes[i]? = some (.branch box left) →
    rest.length + 2 ≤ stackSize
  /-- Walks come to such stacks only, whatever they do at the nodes. -/
  reached : ∀ (σ : Type) (rule : Walk.Rule σ) (s : σ) (n : Nat),
    Stacks nodes root (Walk.run nodes rule n ⟨[root], s⟩).stack
  /-- The device passes over nothing for want of room. -/
  device : ∀ (σ : Type) (rule : Walk.Rule σ) (s : σ),
    deviceWalk nodes rule root s = walk nodes rule root s

/-- Walks below a node that does not have too many levels below it have room. -/
theorem Shallow.walksBounded (hroot : Shallow nodes h.depth root) (hdepth : h.depth ≤ maxDepth) :
    WalksBounded nodes root h := by
  have hlength : ∀ stack, Stacks nodes root stack → stack.length ≤ h.depth + 1 :=
    fun stack hstack => (hstack.pending hroot).length_le
  have hless : h.depth + 1 < stackSize := Nat.lt_of_le_of_lt (Nat.succ_le_succ hdepth) (by decide)
  have hroom : ∀ i rest box left, Stacks nodes root (i :: rest) →
      nodes[i]? = some (.branch box left) → rest.length + 2 ≤ stackSize := by
    intro i rest box left hstack hnode
    have hentered := hlength _ (hstack.enter hnode)
    rw [List.length_cons, List.length_cons] at hentered
    omega
  exact
    { length_le := hlength
      length_lt := hless
      room := hroom
      reached := fun σ rule s n => Stacks.run (w := ⟨[root], s⟩) .start rule n
      device := fun σ rule s =>
        congrArg Walk.state (Walk.runWithin_eq (w := ⟨[root], s⟩) hroom .start rule nodes.size) }

/-! ## Packed scenes -/

/-- Hierarchies of boxes are not too deep. -/
theorem depth_ofBoxes_le (boxes : List (Box Float32)) : (ofBoxes boxes).depth ≤ maxDepth := by
  rcases eq_or_ne boxes [] with rfl | hboxes
  · exact Nat.zero_le _
  · have heq : ofBoxes boxes = ⟨some (Tree.build maxDepth (itemsOf boxes))⟩ :=
      ofBoxesLimited_eq hboxes
    rw [heq]
    exact (Tree.built_build maxDepth (itemsOf boxes)).depth_le

/-- A traversal on the device finds what a traversal finds, if the walks below all roots have
room. -/
theorem Packed.deviceHit?_eq {top : Bvh} (htop : WalksBounded p.nodes 0 top)
    (hroots : ∀ (k : Nat) root, p.roots[k]? = some root → ∃ h, WalksBounded p.nodes root h)
    (r : Ray) (instances : Array Instance) (triangle : Nat → Nat → Option Triangle) :
    p.deviceHit? r instances triangle = p.hit? r instances triangle := by
  have htry : p.deviceTryInstance r instances triangle = p.tryInstance r instances triangle := by
    funext best index
    unfold deviceTryInstance tryInstance
    cases instances[index]? with
    | none => rfl
    | some i =>
      dsimp only
      cases hroot : p.roots[i.shape]? with
      | none => rfl
      | some root =>
        obtain ⟨h, hbounded⟩ := hroots _ root hroot
        have hshape (ray : Ray) :
            p.deviceHitShape? root ray (triangle i.shape) =
              p.hitShape? root ray (triangle i.shape) := hbounded.device _ _ none
        cases hhit : p.hitShape? root (r.toObject i (r.closest (best.map (·.point))))
          (triangle i.shape) with
        | none | some => simp only [hshape, hhit]
  have hrule : p.deviceSceneRule r instances triangle = p.sceneRule r instances triangle := by
    unfold deviceSceneRule sceneRule
    rw [htry]
  rw [deviceHit?, hrule]
  exact htop.device _ _ none

/-- In a packed scene whose shapes have hierarchies of boxes, the walk below the first node and those
below the roots of the shapes have room on the device: no stack ever holds more nodes than the
hierarchy that is walked has levels. So the device finds the same hits as a traversal whose stacks
may grow. -/
theorem pack_walks_bounded (boxes : List (List (Box Float32))) (instances : List Instance) :
    WalksBounded (pack (boxes.map ofBoxes) instances).nodes 0 (ofBoxes (instances.map (·.box))) ∧
      (pack (boxes.map ofBoxes) instances).roots.size = boxes.length ∧
      (∀ (k : Nat) root, (pack (boxes.map ofBoxes) instances).roots[k]? = some root →
        ∃ bs, boxes[k]? = some bs ∧
          WalksBounded (pack (boxes.map ofBoxes) instances).nodes root (ofBoxes bs)) ∧
      ∀ (r : Ray) (triangle : Nat → Nat → Option Triangle),
        (pack (boxes.map ofBoxes) instances).deviceHit? r instances.toArray triangle =
          (pack (boxes.map ofBoxes) instances).hit? r instances.toArray triangle := by
  obtain ⟨hholds, hstores⟩ := holds_pack (boxes.map ofBoxes) instances
  have htop := hholds.shallow.walksBounded (depth_ofBoxes_le _)
  have hroots : ∀ (k : Nat) root, (pack (boxes.map ofBoxes) instances).roots[k]? = some root →
      ∃ bs, boxes[k]? = some bs ∧
        WalksBounded (pack (boxes.map ofBoxes) instances).nodes root (ofBoxes bs) := by
    intro k root hroot
    obtain ⟨h, first, hshape, hheld⟩ := hstores.of_root hroot
    rw [List.getElem?_map, Option.map_eq_some_iff] at hshape
    obtain ⟨bs, hbs, rfl⟩ := hshape
    exact ⟨bs, hbs, hheld.shallow.walksBounded (depth_ofBoxes_le bs)⟩
  refine ⟨htop, ?_, hroots, fun r triangle => ?_⟩
  · rw [hstores.size, List.length_map]
  · refine Packed.deviceHit?_eq htop (fun k root hroot => ?_) r _ triangle
    obtain ⟨bs, -, hbounded⟩ := hroots k root hroot
    exact ⟨_, hbounded⟩

end Candela.Bvh
