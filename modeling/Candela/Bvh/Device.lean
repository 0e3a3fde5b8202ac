import Candela.Bvh.Trace

/-!
# Walks with room for so many nodes

The device keeps the nodes that are still to be looked at in arrays of fixed length, one for the top
level and one for the shape that is looked at. Where there is no room for both children of a node it
puts neither there, and so passes over everything below the node.
-/

namespace Candela.Bvh

/-- How many nodes the device has room for. -/
def stackSize : Nat := 64

variable {σ : Type}

/-- Looks at one node, with room for so many nodes that are still to be looked at. -/
def Walk.stepWithin (room : Nat) (nodes : Array Node) (rule : Walk.Rule σ) (w : Walk σ) : Walk σ :=
  match w.stack with
  | [] => w
  | i :: rest =>
    match nodes[i]? with
    | some (.branch box left) =>
      if rule.enters box w.state then
        if rest.length + 2 ≤ room then ⟨(left + 1) :: left :: rest, w.state⟩ else ⟨rest, w.state⟩
      else ⟨rest, w.state⟩
    | some (.leaf box first count) =>
      if rule.enters box w.state then ⟨rest, rule.visit first count w.state⟩ else ⟨rest, w.state⟩
    | some .empty | none => ⟨rest, w.state⟩

/-- Looks at up to as many nodes as given, with room for so many. -/
def Walk.runWithin (room : Nat) (nodes : Array Node) (rule : Walk.Rule σ) : Nat → Walk σ → Walk σ
  | 0, w => w
  | n + 1, w =>
    if w.stack.isEmpty then w else runWithin room nodes rule n (w.stepWithin room nodes rule)

/-- Walks below a node on the device. -/
def deviceWalk (nodes : Array Node) (rule : Walk.Rule σ) (root : Nat) (state : σ) : σ :=
  (Walk.runWithin stackSize nodes rule nodes.size ⟨[root], state⟩).state

/-! ## Rays -/

/-- The closest hit of a ray in a shape's space, as the device looks for it. -/
def Packed.deviceHitShape? (p : Packed) (root : Nat) (r : Ray) (triangle : Nat → Option Triangle) :
    Option ItemHit :=
  deviceWalk p.nodes (p.shapeRule r triangle) root none

/-- An instance, if the device finds that it is hit closer than before. -/
def Packed.deviceTryInstance (p : Packed) (r : Ray) (instances : Array Instance)
    (triangle : Nat → Nat → Option Triangle) (best : Option Hit) (index : Nat) : Option Hit :=
  match instances[index]? with
  | none => best
  | some i =>
    match p.roots[i.shape]? with
    | none => best
    | some root =>
      let ray := r.toObject i (r.closest (best.map (·.point)))
      match p.deviceHitShape? root ray (triangle i.shape) with
      | some hit => some ⟨index, hit.item, hit.point⟩
      | none => best

/-- What a ray does at the nodes of the top level on the device. -/
def Packed.deviceSceneRule (p : Packed) (r : Ray) (instances : Array Instance)
    (triangle : Nat → Nat → Option Triangle) : Walk.Rule (Option Hit) where
  enters box best := r.meets (r.closest (best.map (·.point))) box
  visit first count best :=
    (p.itemsOf first count).foldl (p.deviceTryInstance r instances triangle) best

/-- The closest hit of a ray, as the device looks for it. -/
def Packed.deviceHit? (p : Packed) (r : Ray) (instances : Array Instance)
    (triangle : Nat → Nat → Option Triangle) : Option Hit :=
  deviceWalk p.nodes (p.deviceSceneRule r instances triangle) 0 none

end Candela.Bvh
