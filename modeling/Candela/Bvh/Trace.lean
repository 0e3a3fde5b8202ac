import Candela.Bvh.Packed
import Candela.Geometry.Triangle

/-!
# Tracing rays

A ray walks down a laid-out hierarchy with a stack of nodes to be looked at. `Walk.step` looks at
one of them; every node of a hierarchy is put on the stack at most once, so as many steps as there
are nodes are enough. A box is entered only if the ray meets it closer than what it has hit so far.
-/

namespace Candela.Bvh

/-! ## Walks -/

/-- A walk: the nodes that are still to be looked at, the next one first, and what has been
found. -/
structure Walk (σ : Type) where
  stack : List Nat
  state : σ

/-- What a walk does at the nodes. -/
structure Walk.Rule (σ : Type) where
  /-- Whether a box is entered. -/
  enters : Box Float32 → σ → Bool
  /-- Looks at the items of a leaf, from the first one on. -/
  visit : (first count : Nat) → σ → σ

/-- Looks at one node. The right child of a node is looked at before the left one. -/
def Walk.step {σ : Type} (nodes : Array Node) (rule : Walk.Rule σ) (w : Walk σ) : Walk σ :=
  match w.stack with
  | [] => w
  | i :: rest =>
    match nodes[i]? with
    | some (.branch box left) =>
      if rule.enters box w.state then ⟨(left + 1) :: left :: rest, w.state⟩ else ⟨rest, w.state⟩
    | some (.leaf box first count) =>
      if rule.enters box w.state then ⟨rest, rule.visit first count w.state⟩ else ⟨rest, w.state⟩
    | some .empty | none => ⟨rest, w.state⟩

/-- Looks at up to as many nodes as given. -/
def Walk.run {σ : Type} (nodes : Array Node) (rule : Walk.Rule σ) : Nat → Walk σ → Walk σ
  | 0, w => w
  | n + 1, w => if w.stack.isEmpty then w else run nodes rule n (w.step nodes rule)

/-- Walks all of the hierarchy below a node. -/
def walk {σ : Type} (nodes : Array Node) (rule : Walk.Rule σ) (root : Nat) (state : σ) : σ :=
  (Walk.run nodes rule nodes.size ⟨[root], state⟩).state

/-! ## Rays -/

/-- A ray, and how far it reaches. -/
structure Ray where
  origin : Vec3 Float32
  direction : Vec3 Float32
  limit : Float32

/-- Whether a ray that has already hit something meets a box any closer. -/
def Ray.meets (r : Ray) (closest : Float32) (box : Box Float32) : Bool :=
  (box.entry? r.origin r.direction.recip closest).isSome

/-- A hit of a ray with a triangle of a shape. -/
structure ItemHit where
  item : Nat
  point : Triangle.Hit

/-- What a ray hits in the scene. -/
structure Hit where
  instanceIndex : Nat
  item : Nat
  point : Triangle.Hit

/-- The closest hit so far, or the end of the ray. -/
def Ray.closest (r : Ray) (best : Option Triangle.Hit) : Float32 :=
  (best.map (·.distance)).getD r.limit

/-- A triangle of a shape, if it is hit closer than before. -/
def Ray.tryItem (r : Ray) (triangle : Nat → Option Triangle) (best : Option ItemHit) (item : Nat) :
    Option ItemHit :=
  match (triangle item).bind (·.hit? r.origin r.direction) with
  | some point =>
    if point.distance < r.closest (best.map (·.point)) then some ⟨item, point⟩ else best
  | none => best

/-- The items of a leaf. -/
def Packed.itemsOf (p : Packed) (first count : Nat) : List Nat :=
  (p.items.extract first (first + count)).toList

/-- What a ray in a shape's space does at the nodes of its hierarchy. -/
def Packed.shapeRule (p : Packed) (r : Ray) (triangle : Nat → Option Triangle) :
    Walk.Rule (Option ItemHit) where
  enters box best := r.meets (r.closest (best.map (·.point))) box
  visit first count best := (p.itemsOf first count).foldl (r.tryItem triangle) best

/-- The closest hit of a ray in a shape's space, the root of the shape's hierarchy given. -/
def Packed.hitShape? (p : Packed) (root : Nat) (r : Ray) (triangle : Nat → Option Triangle) :
    Option ItemHit :=
  walk p.nodes (p.shapeRule r triangle) root none

/-- A ray in the space of an instance, which reaches up to the closest hit. -/
def Ray.toObject (r : Ray) (i : Instance) (closest : Float32) : Ray :=
  ⟨i.toObject.applyPoint r.origin, i.toObject.applyDirection r.direction, closest⟩

/-- An instance, if it is hit closer than before. -/
def Packed.tryInstance (p : Packed) (r : Ray) (instances : Array Instance)
    (triangle : Nat → Nat → Option Triangle) (best : Option Hit) (index : Nat) : Option Hit :=
  match instances[index]? with
  | none => best
  | some i =>
    match p.roots[i.shape]? with
    | none => best
    | some root =>
      let ray := r.toObject i (r.closest (best.map (·.point)))
      match p.hitShape? root ray (triangle i.shape) with
      | some hit => some ⟨index, hit.item, hit.point⟩
      | none => best

/-- What a ray does at the nodes of the top level. -/
def Packed.sceneRule (p : Packed) (r : Ray) (instances : Array Instance)
    (triangle : Nat → Nat → Option Triangle) : Walk.Rule (Option Hit) where
  enters box best := r.meets (r.closest (best.map (·.point))) box
  visit first count best := (p.itemsOf first count).foldl (p.tryInstance r instances triangle) best

/-- The closest hit of a ray; `triangle` gives a triangle of a shape in the shape's own space. -/
def Packed.hit? (p : Packed) (r : Ray) (instances : Array Instance)
    (triangle : Nat → Nat → Option Triangle) : Option Hit :=
  walk p.nodes (p.sceneRule r instances triangle) 0 none

end Candela.Bvh
