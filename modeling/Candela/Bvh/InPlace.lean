import Candela.Bvh.Build
import Candela.Power

/-!
# Building hierarchies in place

The builder as a loop over a workspace: the nodes so far, the order of the items, and a stack of
tasks, each of which is a range of the order whose tree is yet to be put at some place. A task
either becomes a leaf or has its range of the order partitioned in place and leaves two tasks
behind. Every place that is read or written is looked up first, and a place that is not there ends
the run without an answer. The loop comes to an end because no task that is left behind is farther
from the root than the limit allows (`work_lt_of_perform?`).
-/

namespace Candela.Bvh.InPlace

/-! ## Partitions -/

/-- Exchanges two elements. -/
def swap? (order : Array Nat) (i j : Nat) : Option (Array Nat) := do
  let x ← order[i]?
  let y ← order[j]?
  some ((order.setIfInBounds i y).setIfInBounds j x)

/-- Sorts the `count` elements from `left` on by a predicate that may fail, from both ends; where
those that do not have the property begin. -/
def partition? (p : Nat → Option Bool) :
    (left count : Nat) → Array Nat → Option (Nat × Array Nat)
  | left, 0, order => some (left, order)
  | left, count + 1, order => do
    if ← p (← order[left]?) then partition? p (left + 1) count order
    else partition? p left count (← swap? order left (left + count))

/-- Whether the item at some index is before a split. -/
def isBefore? (boxes : Array (Box Float32)) (s : Split) (index : Nat) : Option Bool := do
  let box ← boxes[index]?
  let middle ← box.centroid.toList[s.axis]?
  some (middle < s.position)

/-! ## Tasks -/

/-- A range of the order that is to be made into a tree, the place of its root, and how many steps
that is away from the root of the whole tree. -/
structure Task where
  slot : Nat
  first : Nat
  last : Nat
  depth : Nat

/-- A hierarchy that is being built. -/
structure Workspace where
  nodes : Array Node
  order : Array Nat
  tasks : List Task

/-- The items of a range of the order. -/
def items? (boxes : Array (Box Float32)) (order : Array Nat) (first last : Nat) :
    Option (List Item) :=
  if first ≤ last ∧ last ≤ order.size then
    (order.extract first last).toList.mapM fun i => boxes[i]?.map fun b => ⟨i, b⟩
  else none

/-- Puts a node where there is one. -/
def setNode? (nodes : Array Node) (slot : Nat) (node : Node) : Option (Array Node) :=
  if slot < nodes.size then some (nodes.setIfInBounds slot node) else none

/-- The split of some items with a box around them; there is none where they are to be a leaf. -/
def split? (limit depth : Nat) (items : List Item) (box : Box Float32) : Option Split :=
  if items.length ≤ maxLeafSize ∨ limit ≤ depth then none
  else (cheapest? (splits items)).filter fun s => !s.isDear items box

/-- Does a task that is no longer on the stack. The left one of two new tasks is done first. -/
def perform? (limit : Nat) (boxes : Array (Box Float32)) (task : Task) (w : Workspace) :
    Option Workspace := do
  let items ← items? boxes w.order task.first task.last
  let box := Box.union (items.map (·.box))
  match split? limit task.depth items box with
  | none =>
    let nodes ← setNode? w.nodes task.slot (.leaf box task.first items.length)
    some { w with nodes }
  | some s =>
    let (middle, order) ← partition? (isBefore? boxes s) task.first items.length w.order
    let middle :=
      if middle = task.first ∨ middle = task.last then (task.first + task.last) / 2 else middle
    let left := w.nodes.size
    let nodes ← setNode? ((w.nodes.push .empty).push .empty) task.slot (.branch box left)
    some
      { nodes, order
        tasks := ⟨left, task.first, middle, task.depth + 1⟩ ::
          ⟨left + 1, middle, task.last, task.depth + 1⟩ :: w.tasks }

/-- How much there is to do: a task counts three times as much as one that is a step farther from
the root, and so more than the two that it may leave behind. -/
def Workspace.work (limit : Nat) (w : Workspace) : Nat :=
  w.tasks.foldr (fun task rest => 3 ^ (limit - task.depth) + rest) 0

/-- A task that is split is not too far from the root. -/
theorem lt_of_split?_eq_some {limit depth : Nat} {items : List Item} {box : Box Float32} {s : Split}
    (h : split? limit depth items box = some s) : depth < limit := by
  unfold split? at h
  split at h
  · cases h
  · omega

/-- There is less to do after a task. -/
theorem work_lt_of_perform? {limit : Nat} {boxes : Array (Box Float32)} {task : Task}
    {w next : Workspace} (h : perform? limit boxes task w = some next) :
    next.work limit < 3 ^ (limit - task.depth) + w.work limit := by
  simp only [perform?, Option.bind_eq_bind, Option.bind_eq_some_iff] at h
  obtain ⟨items, -, h⟩ := h
  split at h
  · obtain ⟨nodes, -, h⟩ := Option.bind_eq_some_iff.1 h
    cases h
    exact Nat.lt_add_of_pos_left (Nat.pow_pos (by decide))
  · next hsplit =>
    obtain ⟨⟨middle, order⟩, -, h⟩ := Option.bind_eq_some_iff.1 h
    obtain ⟨nodes, -, h⟩ := Option.bind_eq_some_iff.1 h
    cases h
    have hdepth := lt_of_split?_eq_some hsplit
    have hlevels : limit - task.depth = limit - (task.depth + 1) + 1 := by omega
    have hpos : 0 < 3 ^ (limit - (task.depth + 1)) := Nat.pow_pos (by decide)
    rw [hlevels, Nat.pow_succ]
    simp only [Workspace.work, List.foldr_cons]
    omega

/-- Does all tasks. -/
def run? (limit : Nat) (boxes : Array (Box Float32)) (w : Workspace) : Option Workspace :=
  match _tasks : w.tasks with
  | [] => some w
  | task :: tasks =>
    match _performed : perform? limit boxes task { w with tasks } with
    | none => none
    | some next => run? limit boxes next
termination_by w.work limit
decreasing_by
  have hless := work_lt_of_perform? _performed
  simpa only [Workspace.work, _tasks, List.foldr_cons] using hless

/-- The nodes of the hierarchy of some boxes, and the order of the items in its leaves. -/
def build? (limit : Nat) (boxes : Array (Box Float32)) : Option (Array Node × Array Nat) :=
  if boxes.isEmpty then some (#[.empty], #[])
  else
    (run? limit boxes ⟨#[.empty], Array.range boxes.size, [⟨0, 0, boxes.size, 0⟩]⟩).map fun w =>
      (w.nodes, w.order)

end Candela.Bvh.InPlace
