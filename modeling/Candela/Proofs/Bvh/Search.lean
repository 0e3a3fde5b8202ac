import Candela.Bvh.Strict
import Candela.Proofs.Bvh.Hierarchy

/-!
# Searching trees with a stack

`Tree.search` is the search of a tree by recursion: a subtree whose box is not entered is left out,
and the right one of two subtrees comes first. A strict walk with a stack does the same on a tree
that can be read from packed nodes, whatever the other nodes are, and puts what else is on the stack
off until it is done (`strictRun?_of_laid`). It looks at no more nodes than the tree has, so that
the bound on its steps decides nothing (`Packed.Holds.strictWalk_eq`). A walk that is not strict
does the same as a strict one that has an answer (`run_of_strictRun?`).
-/

namespace Candela.Bvh

variable {σ : Type}

/-- What a search does with boxes and with items. -/
structure Search (σ : Type) where
  /-- Whether a box is entered. -/
  enters : Box Float32 → σ → Bool
  /-- Looks at an item. -/
  visit : σ → Nat → σ

/-- Searches a tree. -/
def Tree.search (q : Search σ) : Tree → σ → σ
  | leaf b is, s => if q.enters b s then is.foldl q.visit s else s
  | branch b l r, s => if q.enters b s then l.search q (r.search q s) else s

/-- Searches a hierarchy. -/
def search (q : Search σ) (h : Bvh) (s : σ) : σ :=
  match h.root with
  | none => s
  | some t => t.search q s

/-- What a search does at the nodes of packed hierarchies. -/
def Search.rule (q : Search σ) (p : Packed) : Walk.Rule σ where
  enters := q.enters
  visit first count s := (p.itemsOf first count).foldl q.visit s

/-- Packed hierarchies hold one whose root is at a place and whose items begin at a place. -/
inductive Packed.Holds (p : Packed) (root first : Nat) : Bvh → Prop where
  /-- There are no items. -/
  | empty (hnode : p.nodes[root]? = some .empty) : Holds p root first ⟨none⟩
  /-- A tree is read from the nodes and its items from the indices. -/
  | tree {t : Tree} (hlaid : Laid p.nodes root first t) (hroom : 2 * t.branchCount < p.nodes.size)
      (hitems : ∀ (i : Nat) (x : Nat), t.items[i]? = some x → p.items[first + i]? = some x) :
      Holds p root first ⟨some t⟩

variable {p : Packed} {root first slot : Nat} {t : Tree} {q : Search σ}

/-! ## Strict walks -/

section
variable {nodes : Array Node} {rule : Walk.StrictRule σ}

/-- Looking at the places of some items is looking at the items. -/
theorem foldlM_range'_of_visit {is : List Nat}
    (hvisit : ∀ (i : Nat) (x : Nat), is[i]? = some x →
      ∀ s, rule.visit (first + i) s = some (q.visit s x)) (s : σ) :
    (List.range' first is.length).foldlM (fun s place => rule.visit place s) s =
      some (is.foldl q.visit s) := by
  induction is generalizing first s with
  | nil => rfl
  | cons x is ih =>
    have hhead : rule.visit first s = some (q.visit s x) := hvisit 0 x rfl s
    have htail : ∀ (i : Nat) (y : Nat), is[i]? = some y →
        ∀ s, rule.visit (first + 1 + i) s = some (q.visit s y) := by
      intro i y hy s
      rw [Nat.add_right_comm]
      exact hvisit (i + 1) y hy s
    rw [List.length_cons, List.range'_succ, List.foldlM_cons, hhead, List.foldl_cons]
    exact ih htail (q.visit s x)

/-- What is true of the places of the items of two trees is true of those of the left one. -/
theorem Tree.forall_items_left {P : Nat → Nat → Prop} {b : Box Float32} {l r : Tree}
    (h : ∀ i x, (Tree.branch b l r).items[i]? = some x → P (first + i) x) :
    ∀ i x, l.items[i]? = some x → P (first + i) x := by
  intro i x hx
  refine h i x ?_
  rw [Tree.items, List.getElem?_append_left (List.getElem?_eq_some_iff.1 hx).1]
  exact hx

/-- What is true of the places of the items of two trees is true of those of the right one, which
come after those of the left one. -/
theorem Tree.forall_items_right {P : Nat → Nat → Prop} {b : Box Float32} {l r : Tree}
    (h : ∀ i x, (Tree.branch b l r).items[i]? = some x → P (first + i) x) :
    ∀ i x, r.items[i]? = some x → P (first + l.items.length + i) x := by
  intro i x hx
  rw [Nat.add_assoc]
  refine h _ x ?_
  rw [Tree.items, List.getElem?_append_right (Nat.le_add_right _ _), Nat.add_sub_cancel_left]
  exact hx

/-- A strict walk searches the tree of the first node on its stack, in no more steps than the tree
has nodes. -/
theorem strictRun?_of_laid (henters : rule.enters = q.enters) (hlaid : Laid nodes slot first t)
    (hvisit : ∀ i x, t.items[i]? = some x → ∀ s, rule.visit (first + i) s = some (q.visit s x))
    (rest : List Nat) (s : σ) :
    ∃ steps ≤ 2 * t.branchCount + 1, ∀ n,
      Walk.strictRun? nodes rule (n + steps) ⟨slot :: rest, s⟩ =
        Walk.strictRun? nodes rule n ⟨rest, t.search q s⟩ := by
  induction hlaid generalizing rest s with
  | @leaf slot first b is hnode =>
    refine ⟨1, Nat.le_add_left _ _, fun n => ?_⟩
    have his := foldlM_range'_of_visit hvisit s
    simp only [Walk.strictRun?, hnode, henters, Tree.search]
    split
    · rw [show (Tree.leaf b is).items = is from rfl] at his
      rw [his]
      rfl
    · rfl
  | @branch slot first left b l r hnode _ _ ihl ihr =>
    by_cases henter : q.enters b s = true
    · let P (place x : Nat) : Prop := ∀ s, rule.visit place s = some (q.visit s x)
      have hvisitl := Tree.forall_items_left (P := P) hvisit
      have hvisitr := Tree.forall_items_right (P := P) hvisit
      obtain ⟨m, hm, hrunr⟩ := ihr hvisitr (left :: rest) s
      obtain ⟨k, hk, hrunl⟩ := ihl hvisitl rest (r.search q s)
      refine ⟨k + m + 1, ?_, fun n => ?_⟩
      · rw [Tree.branchCount]
        omega
      · rw [← Nat.add_assoc, ← Nat.add_assoc, Walk.strictRun?]
        simp only [hnode, henters, henter, if_true]
        rw [hrunr, hrunl, Tree.search, if_pos henter]
    · refine ⟨1, Nat.le_add_left _ _, fun n => ?_⟩
      rw [Walk.strictRun?]
      simp only [hnode, henters, henter]
      rw [Tree.search, if_neg henter]
      rfl

/-- Walking below the root of a hierarchy whose items can be looked at comes to an end, and is
searching the hierarchy. -/
theorem Packed.Holds.strictWalk_eq {h : Bvh} (hholds : p.Holds root first h)
    (henters : rule.enters = q.enters)
    (hvisit : ∀ place x, p.items[place]? = some x → x ∈ h.items →
      ∀ s, rule.visit place s = some (q.visit s x)) (s : σ) :
    strictWalk? p.nodes rule root s = some (Bvh.search q h s) := by
  cases hholds with
  | empty hnode =>
    have hroot : root < p.nodes.size := (Array.getElem?_eq_some_iff.1 hnode).1
    obtain ⟨n, hn⟩ := Nat.exists_eq_add_one_of_ne_zero (Nat.ne_of_gt (Nat.lt_of_le_of_lt
      (Nat.zero_le _) hroot))
    rw [strictWalk?, hn, Walk.strictRun?]
    simp only [hnode, Walk.strictRun?]
    rfl
  | @tree t hlaid hroom hitems =>
    obtain ⟨steps, hsteps, hrun⟩ := strictRun?_of_laid henters hlaid
      (fun i x hx => hvisit _ x (hitems i x hx) (List.mem_of_getElem? hx)) [] s
    have hbound := hrun (p.nodes.size - steps)
    rw [Nat.sub_add_cancel (by omega)] at hbound
    rw [strictWalk?, hbound, Walk.strictRun?]
    rfl

end

/-! ## Walks that are not strict -/

/-- A walk that is not strict does what a strict one does that has an answer. -/
theorem run_of_strictRun? {nodes : Array Node} {rule : Walk.Rule σ} {strict : Walk.StrictRule σ}
    (henters : strict.enters = rule.enters)
    (hvisit : ∀ first count s s',
      (List.range' first count).foldlM (fun s place => strict.visit place s) s = some s' →
        rule.visit first count s = s')
    {n : Nat} {w : Walk σ} {s : σ} (h : Walk.strictRun? nodes strict n w = some s) :
    Walk.run nodes rule n w = ⟨[], s⟩ := by
  induction n generalizing w with
  | zero =>
    obtain ⟨_ | ⟨i, rest⟩, s₀⟩ := w
    · cases h
      rfl
    · cases h
  | succ n ih =>
    obtain ⟨_ | ⟨i, rest⟩, s₀⟩ := w
    · cases h
      rfl
    · have hrun : Walk.run nodes rule (n + 1) ⟨i :: rest, s₀⟩ =
          Walk.run nodes rule n (Walk.step nodes rule ⟨i :: rest, s₀⟩) := rfl
      rw [hrun]
      rw [Walk.strictRun?, henters] at h
      cases hnode : nodes[i]? with
      | none =>
        simp only [hnode] at h
        cases h
      | some node =>
        cases node with
        | empty =>
          simp only [hnode] at h
          simp only [Walk.step, hnode]
          exact ih h
        | branch box left =>
          simp only [hnode] at h
          simp only [Walk.step, hnode]
          by_cases henter : rule.enters box s₀ = true
          · rw [if_pos henter] at h ⊢
            exact ih h
          · rw [if_neg henter] at h ⊢
            exact ih h
        | leaf box first count =>
          simp only [hnode] at h
          simp only [Walk.step, hnode]
          by_cases henter : rule.enters box s₀ = true
          · rw [if_pos henter] at h ⊢
            obtain ⟨s', hs', h⟩ := Option.bind_eq_some_iff.1 h
            rw [hvisit _ _ _ _ hs']
            exact ih h
          · rw [if_neg henter] at h ⊢
            exact ih h

/-- The items of a leaf, one after another. -/
theorem itemsOf_succ {x : Nat} (count : Nat) (hx : p.items[first]? = some x) :
    p.itemsOf first (count + 1) = x :: p.itemsOf (first + 1) count := by
  obtain ⟨hfirst, rfl⟩ := Array.getElem?_eq_some_iff.1 hx
  have hlist : first < p.items.toList.length := by simpa using hfirst
  simp only [Packed.itemsOf, Array.toList_extract, List.extract_eq_take_drop,
    Nat.add_sub_cancel_left]
  rw [List.drop_eq_getElem_cons hlist, List.take_succ_cons]
  rfl

/-- Looking at the places of a leaf is looking at its items. -/
theorem Search.visit_rule (q : Search σ) (p : Packed) (first count : Nat) (s s' : σ)
    (h : (List.range' first count).foldlM
      (fun s place => p.items[place]?.map fun x => q.visit s x) s = some s') :
    (q.rule p).visit first count s = s' := by
  induction count generalizing first s with
  | zero =>
    cases h
    simp [Search.rule, Packed.itemsOf]
  | succ count ih =>
    rw [List.range'_succ, List.foldlM_cons] at h
    obtain ⟨s₁, hs₁, h⟩ := Option.bind_eq_some_iff.1 h
    obtain ⟨x, hx, rfl⟩ := Option.map_eq_some_iff.1 hs₁
    have hrest := ih _ _ h
    simp only [Search.rule] at hrest ⊢
    rw [itemsOf_succ count hx, List.foldl_cons]
    exact hrest

/-- Walking below the root of a hierarchy is searching the hierarchy. -/
theorem Packed.Holds.walk_eq {h : Bvh} (hholds : p.Holds root first h) (q : Search σ) (s : σ) :
    walk p.nodes (q.rule p) root s = Bvh.search q h s := by
  let strict : Walk.StrictRule σ :=
    ⟨q.enters, fun place s => p.items[place]?.map fun x => q.visit s x⟩
  have hstrict : strictWalk? p.nodes strict root s = some (Bvh.search q h s) :=
    hholds.strictWalk_eq rfl (fun place x hx _ s => by simp [strict, hx]) s
  have henters : strict.enters = (q.rule p).enters := rfl
  rw [walk, run_of_strictRun? henters (q.visit_rule p) hstrict]

end Candela.Bvh
