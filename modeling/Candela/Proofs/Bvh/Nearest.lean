import Candela.Proofs.Bvh.Packed
import Candela.Proofs.Single

/-!
# What is nearest

What a ray is found to hit is a hit, and none that it may not miss is nearer. A search only ever
exchanges what it has found for something nearer (`Nearer`), so it ends with nothing farther away
than any item that it looked at; and it looks at an item unless it leaves out a box on the way to it
(`Tree.exists_visit`). A box that a ray meets is entered by any ray that reaches farther
(`Ray.meets_of_lt`), so what is met as far as the search reaches in the end has been entered. A ray
whose visits take what is nearer (`Ray.Takes`) therefore finds a hit (`Ray.Takes.of_search`), visits
what it meets in the end (`Ray.Takes.exists_visit`) and passes over no hit whose boxes it meets
(`Ray.Takes.not_lt_search`). The triangles of a shape are visited in this way.
-/

namespace Candela.Bvh

/-! ## Searches for what is nearest -/

section
variable {σ : Type} {reach : σ → Float32} {q : Search σ} {s s' s'' : σ} {d : Float32} {k : Nat}
  {t : Tree}

/-- Nothing has been found, or something nearer. -/
def Nearer (reach : σ → Float32) (s s' : σ) : Prop := s' = s ∨ reach s' < reach s

theorem Nearer.refl (s : σ) : Nearer reach s s := .inl rfl

theorem Nearer.trans (h : Nearer reach s s') (h' : Nearer reach s' s'') : Nearer reach s s'' := by
  rcases h with rfl | h
  · exact h'
  · rcases h' with rfl | h'
    · exact .inr h
    · exact .inr (Single.lt_trans h' h)

/-- What is no nearer stays so. -/
theorem Nearer.not_lt (h : Nearer reach s s') (hd : ¬ d < reach s) : ¬ d < reach s' := by
  rcases h with rfl | h
  · exact hd
  · exact fun hlt => hd (Single.lt_trans hlt h)

/-- Looking at items only finds what is nearer. -/
theorem foldl_nearer (hq : ∀ s k, Nearer reach s (q.visit s k)) (is : List Nat) (s : σ) :
    Nearer reach s (is.foldl q.visit s) := by
  induction is generalizing s with
  | nil => exact .refl s
  | cons k is ih => exact (hq s k).trans (ih _)

/-- A distance is no farther away than another one. What is no number is no farther away than
itself. -/
def Within (d far : Float32) : Prop := d = far ∨ d < far

theorem Within.lt {near far : Float32} (h : Within d far) (hlt : near < d) : near < far := by
  rcases h with rfl | h
  · exact hlt
  · exact Single.lt_trans hlt h

/-- What is within reach in the end was so before. -/
theorem Nearer.within (h : Nearer reach s s') (hd : Within d (reach s')) : Within d (reach s) := by
  rcases h with rfl | h
  · exact hd
  · rcases hd with rfl | hd
    · exact .inr h
    · exact .inr (Single.lt_trans hd h)

/-- What is within reach in the end was so after any item. -/
theorem exists_visit_of_mem (hq : ∀ s k, Nearer reach s (q.visit s k)) {is : List Nat}
    (hmem : k ∈ is) {s : σ} (hd : Within d (reach (is.foldl q.visit s))) :
    ∃ s', Within d (reach (q.visit s' k)) := by
  obtain ⟨before, after, rfl⟩ := List.append_of_mem hmem
  rw [List.foldl_append, List.foldl_cons] at hd
  exact ⟨_, (foldl_nearer hq after _).within hd⟩

namespace Tree

/-- Searching only finds what is nearer. -/
theorem search_nearer (hq : ∀ s k, Nearer reach s (q.visit s k)) (t : Tree) (s : σ) :
    Nearer reach s (t.search q s) := by
  induction t generalizing s with
  | leaf b is =>
    rw [search]
    split
    · exact foldl_nearer hq is s
    · exact .refl s
  | branch b l r ihl ihr =>
    rw [search]
    split
    · exact (ihr s).trans (ihl _)
    · exact .refl s

/-- The boxes of a tree that an item is below. -/
def above (k : Nat) : Tree → List (Box Float32)
  | leaf b is => if k ∈ is then [b] else []
  | branch b l r => if k ∈ l.items ++ r.items then b :: (l.above k ++ r.above k) else []

/-- The boxes on the way to an item, from the root to a leaf that has it. -/
inductive PathTo (k : Nat) : Tree → List (Box Float32) → Prop where
  | leaf {b : Box Float32} {is : List Nat} (hk : k ∈ is) : PathTo k (.leaf b is) [b]
  | left {b : Box Float32} {l r : Tree} {bs : List (Box Float32)} (h : PathTo k l bs) :
      PathTo k (.branch b l r) (b :: bs)
  | right {b : Box Float32} {l r : Tree} {bs : List (Box Float32)} (h : PathTo k r bs) :
      PathTo k (.branch b l r) (b :: bs)

/-- There is a way to every item, below boxes that the item is below. -/
theorem exists_pathTo (hmem : k ∈ t.items) : ∃ bs, t.PathTo k bs ∧ bs ⊆ t.above k := by
  induction t with
  | leaf b is =>
    refine ⟨[b], .leaf hmem, ?_⟩
    rw [above, if_pos (show k ∈ is from hmem)]
    exact List.Subset.refl _
  | branch b l r ihl ihr =>
    rw [above, if_pos (show k ∈ l.items ++ r.items from hmem)]
    rcases List.mem_append.1 hmem with hmeml | hmemr
    · obtain ⟨bs, hpath, hsub⟩ := ihl hmeml
      exact ⟨b :: bs, .left hpath,
        List.cons_subset_cons _ (List.subset_append_of_subset_left _ hsub)⟩
    · obtain ⟨bs, hpath, hsub⟩ := ihr hmemr
      exact ⟨b :: bs, .right hpath,
        List.cons_subset_cons _ (List.subset_append_of_subset_right _ hsub)⟩

/-- An item is looked at if no box on a way to it is left out. A box may be left out once less is
reached than in the end. -/
theorem exists_visit (hq : ∀ s k, Nearer reach s (q.visit s k)) {bs : List (Box Float32)}
    (hpath : t.PathTo k bs) (henters : ∀ b ∈ bs, ∀ s, Within d (reach s) → q.enters b s = true)
    {s : σ} (hd : Within d (reach (t.search q s))) : ∃ s', Within d (reach (q.visit s' k)) := by
  have hstart : Within d (reach s) := (t.search_nearer hq s).within hd
  induction hpath generalizing s with
  | leaf hk =>
    rw [search, if_pos (henters _ List.mem_cons_self s hstart)] at hd
    exact exists_visit_of_mem hq hk hd
  | @left b l r bs _ ih =>
    rw [search, if_pos (henters _ List.mem_cons_self s hstart)] at hd
    exact ih (fun b hb => henters b (List.mem_cons_of_mem _ hb)) hd
      ((l.search_nearer hq _).within hd)
  | @right b l r bs _ ih =>
    rw [search, if_pos (henters _ List.mem_cons_self s hstart)] at hd
    exact ih (fun b hb => henters b (List.mem_cons_of_mem _ hb)) ((l.search_nearer hq _).within hd)
      hstart

/-- What every visit keeps holds after a search. -/
theorem search_induction {P : σ → Prop} (hstep : ∀ s, ∀ k ∈ t.items, P s → P (q.visit s k))
    (h : P s) : P (t.search q s) := by
  induction t generalizing s with
  | leaf b is =>
    rw [search]
    split
    · exact List.foldlRecOn is q.visit h fun s hs k hk => hstep s k hk hs
    · exact h
  | branch b l r ihl ihr =>
    rw [search]
    split
    · exact ihl (fun s k hk => hstep s k (List.mem_append_left _ hk))
        (ihr (fun s k hk => hstep s k (List.mem_append_right _ hk)) h)
    · exact h

end Tree

variable {h : Bvh}

/-- The boxes of a hierarchy that an item is below. -/
def above (h : Bvh) (k : Nat) : List (Box Float32) := (h.root.map (Tree.above k)).getD []

/-- The boxes on the way to an item of a hierarchy. -/
def PathTo (h : Bvh) (k : Nat) (bs : List (Box Float32)) : Prop := ∃ t ∈ h.root, t.PathTo k bs

/-- There is a way to every item of a hierarchy, below boxes that the item is below. -/
theorem exists_pathTo (hmem : k ∈ h.items) : ∃ bs, h.PathTo k bs ∧ bs ⊆ h.above k := by
  obtain ⟨_ | t⟩ := h
  · cases hmem
  · obtain ⟨bs, hpath, hsub⟩ := Tree.exists_pathTo hmem
    exact ⟨bs, ⟨t, rfl, hpath⟩, hsub⟩

/-- An item of a hierarchy is looked at if no box on a way to it is left out. -/
theorem exists_visit (hq : ∀ s k, Nearer reach s (q.visit s k)) {bs : List (Box Float32)}
    (hpath : h.PathTo k bs) (henters : ∀ b ∈ bs, ∀ s, Within d (reach s) → q.enters b s = true)
    (hd : Within d (reach (search q h s))) : ∃ s', Within d (reach (q.visit s' k)) := by
  obtain ⟨t, ht, hpath⟩ := hpath
  obtain ⟨root⟩ := h
  cases ht
  exact Tree.exists_visit hq hpath henters hd

/-- What every visit keeps holds after a search. -/
theorem search_induction {P : σ → Prop} (hstep : ∀ s, ∀ k ∈ h.items, P s → P (q.visit s k))
    (hs : P s) : P (search q h s) := by
  obtain ⟨_ | t⟩ := h
  · exact hs
  · exact Tree.search_induction hstep hs

end

/-! ## Rays -/

/-- A ray that meets a box meets it if it reaches farther. -/
theorem Ray.meets_of_lt {r : Ray} {b : Box Float32} {near far : Float32}
    (h : r.meets near b = true) (hlt : near < far) : r.meets far b = true := by
  unfold Ray.meets Box.entry? at h ⊢
  dsimp only [Extremes.least] at h ⊢
  rw [Option.isSome_ite] at h ⊢
  exact Single.le_min_of_lt h hlt

section
variable {α : Type} {r : Ray} {point : α → Triangle.Hit} {visit : Option α → Nat → Option α}
  {ofItem : Nat → α → Prop} {h : Bvh} {hit : α} {d : Float32} {k : Nat}

/-- How far a ray still reaches after something has been found. -/
def Ray.reach (r : Ray) (point : α → Triangle.Hit) (best : Option α) : Float32 :=
  r.closest (best.map point)

/-- The search of a ray that enters the boxes it meets within reach. -/
def Ray.search (r : Ray) (point : α → Triangle.Hit) (visit : Option α → Nat → Option α) :
    Search (Option α) where
  enters box best := r.meets (r.reach point best) box
  visit := visit

/-- Looking at an item leaves what has been found, or it takes a hit with the item that is
nearer. -/
def Ray.Takes (r : Ray) (point : α → Triangle.Hit) (ofItem : Nat → α → Prop)
    (visit : Option α → Nat → Option α) : Prop :=
  ∀ best k, visit best k = best ∨
    ∃ hit, ofItem k hit ∧ (point hit).distance < r.reach point best ∧ visit best k = some hit

/-- Looking at an item only finds what is nearer. -/
theorem Ray.Takes.nearer (hvisit : r.Takes point ofItem visit) (best : Option α) (k : Nat) :
    Nearer (r.reach point) best (visit best k) := by
  rcases hvisit best k with hsame | ⟨hit, -, hlt, htaken⟩
  · exact .inl hsame
  · refine .inr ?_
    rw [htaken]
    exact hlt

/-- What has been found in the end is a hit with an item, and within reach. -/
theorem Ray.Takes.of_search (hvisit : r.Takes point ofItem visit)
    (hhit : Bvh.search (r.search point visit) h none = some hit) :
    (∃ k ∈ h.items, ofItem k hit) ∧ (point hit).distance < r.limit := by
  let Found (best : Option α) : Prop :=
    ∀ hit, best = some hit → (∃ k ∈ h.items, ofItem k hit) ∧ (point hit).distance < r.limit
  have hfound : Found (Bvh.search (r.search point visit) h none) := by
    refine search_induction (fun best k hk ih => ?_) nofun
    show Found (visit best k)
    rcases hvisit best k with hsame | ⟨hit, hitem, hlt, htaken⟩
    · rw [hsame]
      exact ih
    · rw [htaken]
      rintro _ ⟨⟩
      refine ⟨⟨k, hk, hitem⟩, ?_⟩
      cases best with
      | none => exact hlt
      | some old => exact Single.lt_trans hlt (ih old rfl).2
  exact hfound hit hhit

/-- A box that a ray meets is entered as long as the ray still reaches as far. -/
theorem Ray.enters_of_within {b : Box Float32} (hmet : r.meets d b = true) {best : Option α}
    (hd : Within d (r.reach point best)) : (r.search point visit).enters b best = true := by
  rcases hd with rfl | hlt
  · exact hmet
  · exact Ray.meets_of_lt hmet hlt

/-- An item is visited if the ray, reaching only as far as in the end, meets the boxes on the way
to the item. -/
theorem Ray.Takes.exists_visit (hvisit : r.Takes point ofItem visit) {bs : List (Box Float32)}
    (hpath : h.PathTo k bs) (hmet : ∀ b ∈ bs, r.meets d b = true)
    (hd : Within d (r.reach point (Bvh.search (r.search point visit) h none))) :
    ∃ best, Within d (r.reach point (visit best k)) := by
  have hnearer : ∀ best k, Nearer (r.reach point) best ((r.search point visit).visit best k) :=
    hvisit.nearer
  exact Bvh.exists_visit hnearer hpath
    (fun b hb best hbest => Ray.enters_of_within (hmet b hb) hbest) hd

/-- Nothing that an item leaves no nearer is nearer in the end if the ray meets the boxes above the
item. -/
theorem Ray.Takes.not_lt_search (hvisit : r.Takes point ofItem visit)
    (hk : ∀ best, ¬ d < r.reach point (visit best k)) (hmem : k ∈ h.items)
    (hmet : ∀ b ∈ h.above k, r.meets d b = true) :
    ¬ d < r.reach point (Bvh.search (r.search point visit) h none) := by
  intro hlt
  obtain ⟨bs, hpath, hsub⟩ := exists_pathTo hmem
  obtain ⟨best, hbest⟩ :=
    hvisit.exists_visit hpath (fun b hb => Ray.meets_of_lt (hmet b (hsub hb)) hlt) (.inl rfl)
  exact hk best (hbest.lt hlt)

end

/-! ## Shapes -/

section
variable {p : Packed} {root first : Nat} {h : Bvh} {r : Ray} {triangle : Nat → Option Triangle}
  {item : Nat} {point : Triangle.Hit}

/-- A triangle that is tried is taken if it is nearer than what has been found. -/
theorem Ray.tryItem_eq (r : Ray) (triangle : Nat → Option Triangle) (best : Option ItemHit)
    (item : Nat) :
    (r.tryItem triangle best item = best ∧ ∀ point,
      (triangle item).bind (·.hit? r.origin r.direction) = some point →
        ¬ point.distance < r.reach ItemHit.point best) ∨
    ∃ point, (triangle item).bind (·.hit? r.origin r.direction) = some point ∧
      point.distance < r.reach ItemHit.point best ∧
      r.tryItem triangle best item = some ⟨item, point⟩ := by
  unfold Ray.tryItem
  cases hpoint : (triangle item).bind (·.hit? r.origin r.direction) with
  | none => exact .inl ⟨rfl, nofun⟩
  | some point =>
    dsimp only
    split
    · next hlt => exact .inr ⟨point, rfl, hlt, rfl⟩
    · next hfar =>
      refine .inl ⟨rfl, fun point' hpoint' => ?_⟩
      cases hpoint'
      exact hfar

/-- Trying a triangle takes its hit if that is nearer. -/
theorem Ray.takes_tryItem (r : Ray) (triangle : Nat → Option Triangle) :
    r.Takes ItemHit.point (fun item hit => hit.item = item ∧
      (triangle item).bind (·.hit? r.origin r.direction) = some hit.point)
      (r.tryItem triangle) := by
  intro best item
  rcases r.tryItem_eq triangle best item with ⟨hsame, -⟩ | ⟨point, hpoint, hlt, htaken⟩
  · exact .inl hsame
  · exact .inr ⟨⟨item, point⟩, ⟨rfl, hpoint⟩, hlt, htaken⟩

/-- A triangle that has been tried is no nearer than what has been found. -/
theorem Ray.not_lt_tryItem
    (hpoint : (triangle item).bind (·.hit? r.origin r.direction) = some point)
    (best : Option ItemHit) :
    ¬ point.distance < r.reach ItemHit.point (r.tryItem triangle best item) := by
  rcases r.tryItem_eq triangle best item with ⟨hsame, hfar⟩ | ⟨point', hpoint', -, htaken⟩
  · rw [hsame]
    exact hfar point hpoint
  · cases hpoint.symm.trans hpoint'
    rw [htaken]
    exact Single.not_lt_self _

/-- Looking for the nearest triangle of a shape is a search of its hierarchy. -/
theorem Packed.hitShape?_eq (hholds : p.Holds root first h) (r : Ray)
    (triangle : Nat → Option Triangle) :
    p.hitShape? root r triangle =
      Bvh.search (r.search ItemHit.point (r.tryItem triangle)) h none :=
  hholds.walk_eq (r.search ItemHit.point (r.tryItem triangle)) none

/-- What is found in a shape is one of its items, hit and within reach. -/
theorem Packed.of_hitShape? (hholds : p.Holds root first h) {hit : ItemHit}
    (hhit : p.hitShape? root r triangle = some hit) :
    hit.item ∈ h.items ∧
      (triangle hit.item).bind (·.hit? r.origin r.direction) = some hit.point ∧
      hit.point.distance < r.limit := by
  rw [Packed.hitShape?_eq hholds] at hhit
  obtain ⟨⟨_, hitem, rfl, hpoint⟩, hlt⟩ := (r.takes_tryItem triangle).of_search hhit
  exact ⟨hitem, hpoint, hlt⟩

/-- No triangle of a shape is nearer than what is found if the ray meets the boxes above it. -/
theorem Packed.not_lt_hitShape? (hholds : p.Holds root first h) (hitem : item ∈ h.items)
    (hpoint : (triangle item).bind (·.hit? r.origin r.direction) = some point)
    (hmet : ∀ b ∈ h.above item, r.meets point.distance b = true) :
    ¬ point.distance < r.reach ItemHit.point (p.hitShape? root r triangle) := by
  rw [Packed.hitShape?_eq hholds]
  exact (r.takes_tryItem triangle).not_lt_search (Ray.not_lt_tryItem hpoint) hitem hmet

end

end Candela.Bvh
