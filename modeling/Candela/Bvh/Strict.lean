import Candela.Bvh.Trace

/-!
# Walks that look nothing up in vain

The traversal of `Packed.hit?` passes over a node, an item, an instance or a root that is not there,
and takes no more steps than there are nodes. The strict traversal does neither: it gives no answer
where something is looked up that is not there, and none if there is still something to look at
after so many steps. So where it does give an answer, the walk has come to an end by itself.
-/

namespace Candela.Bvh

/-- What a strict walk does at the nodes. -/
structure Walk.StrictRule (σ : Type) where
  /-- Whether a box is entered. -/
  enters : Box Float32 → σ → Bool
  /-- Looks at a place among the items. -/
  visit : (place : Nat) → σ → Option σ

/-- Walks until nothing is left to be looked at, in up to as many steps as given. -/
def Walk.strictRun? {σ : Type} (nodes : Array Node) (rule : Walk.StrictRule σ) :
    Nat → Walk σ → Option σ
  | _, ⟨[], s⟩ => some s
  | 0, ⟨_ :: _, _⟩ => none
  | n + 1, ⟨i :: rest, s⟩ =>
    match nodes[i]? with
    | none => none
    | some .empty => strictRun? nodes rule n ⟨rest, s⟩
    | some (.branch box left) =>
      if rule.enters box s then strictRun? nodes rule n ⟨(left + 1) :: left :: rest, s⟩
      else strictRun? nodes rule n ⟨rest, s⟩
    | some (.leaf box first count) =>
      if rule.enters box s then do
        let s ← (List.range' first count).foldlM (fun s place => rule.visit place s) s
        strictRun? nodes rule n ⟨rest, s⟩
      else strictRun? nodes rule n ⟨rest, s⟩

/-- Walks all of the hierarchy below a node. -/
def strictWalk? {σ : Type} (nodes : Array Node) (rule : Walk.StrictRule σ) (root : Nat)
    (state : σ) : Option σ :=
  Walk.strictRun? nodes rule nodes.size ⟨[root], state⟩

/-- What a ray in a shape's space does at the nodes of its hierarchy. -/
def Packed.strictShapeRule (p : Packed) (r : Ray) (triangle : Nat → Option Triangle) :
    Walk.StrictRule (Option ItemHit) where
  enters box best := r.meets (r.closest (best.map (·.point))) box
  visit place best := do return r.tryItem triangle best (← p.items[place]?)

/-- The closest hit of a ray in a shape's space, if all that is looked up is there. -/
def Packed.strictHitShape? (p : Packed) (root : Nat) (r : Ray) (triangle : Nat → Option Triangle) :
    Option (Option ItemHit) :=
  strictWalk? p.nodes (p.strictShapeRule r triangle) root none

/-- An instance that must be there, if it is hit closer than before. -/
def Packed.strictTryInstance? (p : Packed) (r : Ray) (instances : Array Instance)
    (triangle : Nat → Nat → Option Triangle) (best : Option Hit) (index : Nat) :
    Option (Option Hit) := do
  let i ← instances[index]?
  let root ← p.roots[i.shape]?
  let ray := r.toObject i (r.closest (best.map (·.point)))
  let found ← p.strictHitShape? root ray (triangle i.shape)
  return (found.map fun hit => ⟨index, hit.item, hit.point⟩).or best

/-- What a ray does at the nodes of the top level. -/
def Packed.strictSceneRule (p : Packed) (r : Ray) (instances : Array Instance)
    (triangle : Nat → Nat → Option Triangle) : Walk.StrictRule (Option Hit) where
  enters box best := r.meets (r.closest (best.map (·.point))) box
  visit place best := do p.strictTryInstance? r instances triangle best (← p.items[place]?)

/-- The closest hit of a ray, if all that is looked up is there. -/
def Packed.strictHit? (p : Packed) (r : Ray) (instances : Array Instance)
    (triangle : Nat → Nat → Option Triangle) : Option (Option Hit) :=
  strictWalk? p.nodes (p.strictSceneRule r instances triangle) 0 none

end Candela.Bvh
