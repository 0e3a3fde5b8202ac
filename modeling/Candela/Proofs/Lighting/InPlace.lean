import Candela.Lighting.InPlace
import Candela.Proofs.Environment.InPlace
import Candela.Proofs.Lighting.Distribution

/-!
# Distributions are written in place

Each of the two loops writes an instance's range from its beginning to its end (`Written`,
`ShapeLight.exists_sums`, `ShapeLight.exists_shares`), so what has been written in the end is the
distribution over its triangles, and nothing else has changed (`ShapeLight.exists_write?`). If the
area is positive and finite, that is a cumulative distribution over the triangles that radiate light
(`ShapeLight.exists_writes`). The ranges of all instances lie side by side, and together the runs
write what the finished lights are told (`Draft.write?_eq`).
-/

namespace Candela.Lighting

open Environment.InPlace (set? loop? exists_loop?)
open Scene (Geometry LoadedShape)
open Single

variable {α : Type} {offset : ℕ} {block block' : List α} {data data' data'' : Array α}

/-! ## Ranges -/

/-- An array after a list has been written into a range of it. Nothing else has changed. -/
structure Written (offset : ℕ) (block : List α) (data data' : Array α) : Prop where
  size : data'.size = data.size
  inside : ∀ i < block.length, data'[offset + i]? = block[i]?
  outside : ∀ i, i ∉ (⟨offset, block.length⟩ : Arena.Range) → data'[i]? = data[i]?

namespace Written

/-- Nothing has been written. -/
theorem nil (offset : ℕ) (data : Array α) : Written offset [] data data :=
  ⟨rfl, nofun, fun _ _ => rfl⟩

/-- What comes next has not been written. -/
theorem next (h : Written offset block data data') :
    data'[offset + block.length]? = data[offset + block.length]? := by
  refine h.outside _ fun hmem => ?_
  have hlt := hmem.2
  exact lt_irrefl _ hlt

/-- Writing one more element. -/
theorem set? (h : Written offset block data data') (hroom : offset + block.length < data.size)
    (a : α) : ∃ data'', Environment.InPlace.set? data' (offset + block.length) a = some data'' ∧
      Written offset (block ++ [a]) data data'' := by
  have hlt : offset + block.length < data'.size := h.size ▸ hroom
  refine ⟨data'.setIfInBounds (offset + block.length) a, if_pos hlt, ?_, fun i hi => ?_,
    fun i hi => ?_⟩
  · rw [Array.size_setIfInBounds, h.size]
  · rw [List.length_append, List.length_singleton] at hi
    rcases Nat.lt_succ_iff_lt_or_eq.1 hi with hi | rfl
    · rw [Array.getElem?_setIfInBounds_ne (by omega), h.inside i hi, List.getElem?_append_left hi]
    · rw [Array.getElem?_setIfInBounds_self_of_lt hlt, List.getElem?_concat_length]
  · rw [Arena.Range.mem_iff, Arena.Range.stop, List.length_append, List.length_singleton] at hi
    dsimp only at hi
    rw [Array.getElem?_setIfInBounds_ne (by omega)]
    refine h.outside i fun hmem => hi ⟨hmem.1, ?_⟩
    have hstop : i < offset + block.length := hmem.2
    omega

/-- Writing behind what has been written. -/
theorem append (h : Written offset block data data')
    (h' : Written (offset + block.length) block' data' data'') :
    Written offset (block ++ block') data data'' := by
  refine ⟨h'.size.trans h.size, fun i hi => ?_, fun i hi => ?_⟩
  · rcases Nat.lt_or_ge i block.length with hlt | hge
    · have hbefore : offset + i ∉ (⟨offset + block.length, block'.length⟩ : Arena.Range) :=
        fun hmem => absurd hmem.1 (by dsimp only; omega)
      rw [h'.outside _ hbefore, h.inside i hlt, List.getElem?_append_left hlt]
    · rw [List.length_append] at hi
      have hplace : offset + i = offset + block.length + (i - block.length) := by omega
      rw [hplace, h'.inside _ (by omega), List.getElem?_append_right hge]
  · rw [Arena.Range.mem_iff, Arena.Range.stop, List.length_append] at hi
    dsimp only at hi
    rw [h'.outside i, h.outside i] <;> rw [Arena.Range.mem_iff, Arena.Range.stop] <;>
      dsimp only <;> omega

/-- What has been written from the beginning to the end is all that there is. -/
theorem eq_toArray (h : Written 0 block data data') (hlength : block.length = data.size) :
    data' = block.toArray := by
  refine Array.ext_getElem? fun i => ?_
  have hblock : block.toArray[i]? = block[i]? := List.getElem?_toArray
  rw [hblock]
  rcases Nat.lt_or_ge i block.length with hlt | hge
  · rw [← h.inside i hlt, Nat.zero_add]
  · rw [List.getElem?_eq_none hge, Array.getElem?_eq_none (by rw [h.size]; omega)]

/-- Writing over what has been written. -/
theorem trans (h : Written offset block data data') (h' : Written offset block' data' data'')
    (hlength : block'.length = block.length) : Written offset block' data data'' := by
  refine ⟨h'.size.trans h.size, h'.inside, fun i hi => ?_⟩
  rw [h'.outside i hi]
  exact h.outside i (hlength ▸ hi)

end Written

/-! ## Triangles -/

variable {g : Geometry} {emissive : Array Bool} {faces : List Mesh.Face}

/-- The triangles of an instance are among those of all shapes. -/
theorem getElem?_facesFrom {first count i : ℕ} (h : facesFrom g first count = .ok faces)
    (hi : i < count) : g.faces[first + i]? = faces[i]? := by
  rw [facesFrom] at h
  split at h
  next hle =>
    obtain rfl := Except.ok.inj h
    rw [Array.getElem?_toList, Array.getElem?_extract, if_pos (by omega)]
  next => cases h

/-- A triangle whose surface radiates light. -/
def Radiates (g : Geometry) (emissive : Array Bool) (face : ℕ) : Prop :=
  ∃ f, g.faces[face]? = some f ∧ emissive.getD f.material.toNat false = true

/-- The area of a triangle, if it radiates light. -/
theorem radiatingArea_eq_ok {linear : Mat3 Float32} {f : Mesh.Face} {a : Option Float32} :
    radiatingArea g emissive linear f = .ok a ↔
      (emissive.getD f.material.toNat false = true ∧
        ∃ t, Scene.trianglePoints? g.vertices f = some t ∧ a = some (worldArea linear t)) ∨
      (emissive.getD f.material.toNat false = false ∧ a = none) := by
  rw [radiatingArea]
  cases emissive.getD f.material.toNat false with
  | false => simp [eq_comm]
  | true => cases Scene.trianglePoints? g.vertices f <;> simp [eq_comm]

/-- No area is negative. -/
theorem not_neg_worldArea (linear : Mat3 Float32) (t : Triangle) : ¬ worldArea linear t < 0 := by
  have hhalf : ¬ (0.5 : Float32) < 0 := by decide +kernel
  exact not_neg_mul hhalf (not_neg_sqrt _)

/-! ## Loops -/

variable {l : ShapeLight} {s : LoadedShape} {areas : List (Option Float32)}
  {data data' : Array Float32}

namespace ShapeLight

/-- The first loop writes down the sums. -/
theorem exists_sums
    (hareas : List.Forall₂ (fun f a => radiatingArea g emissive l.transform.linear f = .ok a)
      faces areas)
    (hfaces : ∀ i < areas.length, g.faces[s.info.faces.offset + i]? = faces[i]?)
    (hroom : l.slot.faceOffset + areas.length ≤ data.size) :
    ∃ data', (List.range areas.length).foldlM (fun run i => l.putSum? g emissive s i run)
        (0, data) = some ((runningSums 0 areas).getLastD 0, data') ∧
      Written l.slot.faceOffset (runningSums 0 areas) data data' := by
  let p (i : ℕ) (run : Float32 × Array Float32) : Prop :=
    run.1 = (runningSums 0 (areas.take i)).getLastD 0 ∧
      Written l.slot.faceOffset (runningSums 0 (areas.take i)) data run.2
  have hstep : ∀ i < areas.length, ∀ run, p i run →
      ∃ run', l.putSum? g emissive s i run = some run' ∧ p (i + 1) run' := by
    rintro i hi ⟨total, data'⟩ ⟨htotal, hwritten⟩
    obtain ⟨f, hf, harea⟩ := forall₂_getElem? hareas.flip (List.getElem?_eq_getElem hi)
    have hlength : (runningSums 0 (areas.take i)).length = i := by
      rw [length_runningSums, List.length_take, min_eq_left hi.le]
    obtain ⟨data'', hset, hwritten'⟩ := hwritten.set? (by omega) (addArea total areas[i])
    rw [hlength] at hset
    refine ⟨(addArea total areas[i], data''), ?_, ?_⟩
    · rw [putSum?, hfaces i hi, hf]
      show ((radiatingArea g emissive l.transform.linear f).toOption).bind _ = _
      rw [harea]
      show (set? data' (l.slot.faceOffset + i) (addArea total areas[i])).bind _ = _
      rw [hset]
      rfl
    · obtain rfl : total = _ := htotal
      show _ = (runningSums 0 (areas.take (i + 1))).getLastD 0 ∧ Written _
        (runningSums 0 (areas.take (i + 1))) _ _
      rw [← List.take_concat_get' areas i hi, runningSums_concat, List.getLastD_concat]
      exact ⟨rfl, hwritten'⟩
  obtain ⟨⟨total, data'⟩, hrun, htotal, hwritten⟩ :=
    exists_foldlM_range hstep (s := (0, data)) ⟨rfl, .nil _ _⟩
  rw [List.take_length] at htotal hwritten
  obtain rfl : total = _ := htotal
  exact ⟨data', hrun, hwritten⟩

/-- The second loop divides them. -/
theorem exists_shares {sums : List Float32} (h : Written l.slot.faceOffset sums data data')
    (hroom : l.slot.faceOffset + sums.length ≤ data.size) (total : Float32) :
    ∃ data'', loop? sums.length (l.putShare? total) data' = some data'' ∧
      Written l.slot.faceOffset (sums.map (· / total)) data data'' := by
  have hstep : ∀ i < sums.length, ∀ data₁,
      Written l.slot.faceOffset ((sums.take i).map (· / total)) data' data₁ →
      ∃ data₂, l.putShare? total i data₁ = some data₂ ∧
        Written l.slot.faceOffset ((sums.take (i + 1)).map (· / total)) data' data₂ := by
    intro i hi data₁ hwritten
    have hlength : ((sums.take i).map (· / total)).length = i := by
      rw [List.length_map, List.length_take, min_eq_left hi.le]
    have hread := hwritten.next
    rw [hlength, h.inside i hi, List.getElem?_eq_getElem hi] at hread
    obtain ⟨data₂, hset, hwritten'⟩ := hwritten.set? (by rw [h.size]; omega) (sums[i] / total)
    rw [hlength] at hset
    refine ⟨data₂, ?_, ?_⟩
    · rw [putShare?, hread]
      exact hset
    · rw [← List.take_concat_get' sums i hi, List.map_append]
      exact hwritten'
  obtain ⟨data'', hrun, hwritten⟩ := exists_loop? hstep (.nil _ _)
  rw [List.take_length] at hwritten
  exact ⟨data'', hrun, h.trans hwritten (List.length_map _)⟩

/-- What is written is the distribution. -/
theorem exists_write? {r : Float32 × List Float32} (h : l.distribution g emissive = .ok r)
    (hroom : l.slot.faceOffset + l.slot.faceCount ≤ data.size) :
    ∃ data', l.write? g emissive data = some (r.1, data') ∧
      Written l.slot.faceOffset r.2 data data' := by
  rw [ShapeLight.distribution] at h
  split at h
  next => cases h
  next s hs =>
    obtain ⟨faces, hfaces, h⟩ := bind_eq_ok.1 h
    obtain ⟨areas, hareas, hpure⟩ := bind_eq_ok.1 h
    obtain rfl := pure_eq_ok.1 hpure
    have hareas := mapM_eq_ok.1 hareas
    have hlength : l.slot.faceCount = areas.length :=
      (length_facesFrom hfaces).symm.trans hareas.length_eq
    rw [write?, hs, hlength]
    rw [hlength] at hroom
    obtain ⟨data', hrun, hwritten⟩ := exists_sums (s := s) hareas
      (fun i hi => getElem?_facesFrom hfaces (hlength ▸ hi)) hroom
    rw [← length_runningSums 0 areas] at hroom
    obtain ⟨data'', hrun', hwritten'⟩ :=
      exists_shares hwritten hroom ((runningSums 0 areas).getLastD 0)
    rw [length_runningSums] at hroom hrun'
    simp only [Option.bind_eq_bind, Option.bind_some, if_pos hroom, hrun]
    rw [Lighting.distribution]
    split
    · simp only [hrun', Option.bind_some]
      exact ⟨data'', rfl, hwritten'⟩
    · exact ⟨data', rfl, hwritten⟩

/-! ## Instances -/

/-- What an instance reads is there: its triangles, and the corners of those that radiate light. -/
structure Readable (l : ShapeLight) (g : Geometry) (emissive : Array Bool) (s : LoadedShape) :
    Prop where
  shape : g.shapes[l.shape]? = some s
  faces : ∀ i < l.slot.faceCount, ∃ f, g.faces[s.info.faces.offset + i]? = some f ∧
    (emissive.getD f.material.toNat false = true → ∃ t, Scene.trianglePoints? g.vertices f = some t)

/-- Where what it reads is there, an instance has a distribution, and what has an area in it radiates
light. -/
theorem Readable.exists_areas (h : l.Readable g emissive s) :
    ∃ areas, l.distribution g emissive = .ok (Lighting.distribution areas) ∧
      areas.length = l.slot.faceCount ∧
      ∀ i a, areas[i]? = some (some a) → ∃ f t, i < l.slot.faceCount ∧
        g.faces[s.info.faces.offset + i]? = some f ∧
        emissive.getD f.material.toNat false = true ∧
        Scene.trianglePoints? g.vertices f = some t ∧ a = worldArea l.transform.linear t := by
  obtain ⟨faces, hfaces⟩ : ∃ faces,
      facesFrom g s.info.faces.offset l.slot.faceCount = .ok faces := by
    refine ⟨_, if_pos ?_⟩
    rcases Nat.eq_zero_or_pos l.slot.faceCount with hzero | hpos
    · rw [hzero]
      exact Nat.zero_le _
    · obtain ⟨f, hf, -⟩ := h.faces (l.slot.faceCount - 1) (by omega)
      have hlt := (Array.getElem?_eq_some_iff.1 hf).1
      omega
  have hlength := length_facesFrom hfaces
  obtain ⟨areas, hareas⟩ : ∃ areas,
      faces.mapM (radiatingArea g emissive l.transform.linear) = .ok areas := by
    refine exists_mapM_eq_ok fun f hf => ?_
    obtain ⟨i, hi⟩ := List.mem_iff_getElem?.1 hf
    have hlt : i < l.slot.faceCount := hlength ▸ (List.getElem?_eq_some_iff.1 hi).1
    obtain ⟨f', hf', hcorners⟩ := h.faces i hlt
    rw [getElem?_facesFrom hfaces hlt, hi] at hf'
    obtain rfl := Option.some.inj hf'
    simp only [radiatingArea_eq_ok]
    cases hflag : emissive.getD f.material.toNat false with
    | false => exact ⟨none, .inr ⟨rfl, rfl⟩⟩
    | true =>
      obtain ⟨t, ht⟩ := hcorners hflag
      exact ⟨some (worldArea l.transform.linear t), .inl ⟨rfl, t, ht, rfl⟩⟩
  have hall := mapM_eq_ok.1 hareas
  refine ⟨areas, ?_, hall.length_eq.symm.trans hlength, fun i a ha => ?_⟩
  · rw [ShapeLight.distribution, h.shape]
    exact bind_eq_ok.2 ⟨faces, hfaces, bind_eq_ok.2 ⟨areas, hareas, rfl⟩⟩
  · obtain ⟨f, hf, harea⟩ := forall₂_getElem? hall.flip ha
    have hi : i < l.slot.faceCount := hlength ▸ (List.getElem?_eq_some_iff.1 hf).1
    obtain ⟨hflag, t, ht, hsome⟩ | ⟨-, hnone⟩ := radiatingArea_eq_ok.1 harea
    · exact ⟨f, t, hi, (getElem?_facesFrom hfaces hi).trans hf, hflag, ht, Option.some.inj hsome⟩
    · cases hnone

end ShapeLight

/-- Ranges of different instances have nothing in common. -/
theorem Draft.Ordered.not_mem_range {d : Draft} (hd : d.Ordered) {j k i : ℕ} {l' : ShapeLight}
    (hl : d.shapeLights[k]? = some l) (hl' : d.shapeLights[j]? = some l') (hne : j ≠ k)
    (hi : i ∈ l'.slot.range) : i ∉ l.slot.range := by
  intro hmem
  have hrange {n : ℕ} {l : ShapeLight} (h : d.shapeLights[n]? = some l) :
      (d.shapeLights.map (·.slot.range))[n]? = some l.slot.range := by
    rw [List.getElem?_map, h, Option.map_some]
  have hlt : i < d.faceTotal :=
    hmem.2.trans_le (hd.ranges.bounds (List.mem_of_getElem? (hrange hl))).2
  obtain ⟨n, -, hunique⟩ := hd.ranges.existsUnique (Nat.zero_le i) hlt
  have hj := hunique j ⟨_, hrange hl', hi⟩
  have hk := hunique k ⟨_, hrange hl, hmem⟩
  exact hne (hj.trans hk.symm)

/-- What an instance writes: a cumulative distribution over the triangles that radiate light, unless
there is no area of which anything could have a share. -/
structure ShapeLight.Writes (l : ShapeLight) (g : Geometry) (emissive : Array Bool)
    (s : LoadedShape) (data : Array Float32) (area : Float32) (entries : List Float32)
    (data' : Array Float32) : Prop where
  length : entries.length = l.slot.faceCount
  /-- The entries have been written, and nothing else has changed. -/
  written : Written l.slot.faceOffset entries data data'
  /-- Nothing has changed in the ranges of other instances. -/
  others : ∀ d : Draft, d.Ordered → ∀ (j k : ℕ) l', d.shapeLights[k]? = some l →
    d.shapeLights[j]? = some l' → j ≠ k → ∀ i ∈ l'.slot.range, data'[i]? = data[i]?
  cumulative : 0 < area → area.isFinite = true →
    Cumulative (fun i => Radiates g emissive (s.info.faces.offset + i)) entries
  /-- Every number leads to a triangle that radiates light. -/
  chosen : 0 < area → area.isFinite = true → ∀ u, 0 ≤ u → u < 1 → ∃ i,
    entries.findIdx? (u < ·) = some i ∧ Radiates g emissive (s.info.faces.offset + i)
  /-- Where what radiates light has no area, or nothing radiates any, the area of all is zero. -/
  black : (∀ i < l.slot.faceCount, ∀ f t, g.faces[s.info.faces.offset + i]? = some f →
    emissive.getD f.material.toNat false = true → Scene.trianglePoints? g.vertices f = some t →
    worldArea l.transform.linear t ≤ 0) → area = 0
  zero : area ≤ 0 → area = 0 ∧ entries = List.replicate l.slot.faceCount 0

/-- A square. -/
def lampShape : LoadedShape :=
  ⟨⟨"square", "square.ply", ⟨0, 4⟩, ⟨0, 3⟩, [0, 1], true⟩, .empty, ⟨none⟩⟩

/-- Its second triangle does not have the material of the other two. -/
def lamp : Geometry where
  vertices :=
    let vertex (x y : Float32) : Mesh.Vertex := ⟨⟨x, y, 0⟩, ⟨0, 0, 1⟩, x, y⟩
    #[vertex 0 0, vertex 1 0, vertex 1 1, vertex 0 1]
  faces := #[⟨0, 1, 2, 1⟩, ⟨0, 2, 3, 0⟩, ⟨0, 1, 3, 1⟩]
  shapes := #[lampShape]

/-- The square at twice its size, behind one triangle of something else. -/
def lampLight : ShapeLight where
  entity := 0
  shape := 0
  transform := ⟨⟨2, 0, 0, 0⟩, ⟨0, 2, 0, 0⟩, ⟨0, 0, 2, 0⟩, ⟨0, 0, 0, 1⟩⟩
  slot := ⟨1, 1, 3⟩

/-- One instance after the other writes its distribution behind those before it. -/
theorem exists_writes_all {ls : List ShapeLight} {rs : List (Float32 × List Float32)} {lo hi : ℕ}
    (h : List.Forall₂ (fun l r => l.distribution g emissive = .ok r) ls rs)
    (htiles : Arena.Tiles lo (ls.map (·.slot.range)) hi) (written : List Float32)
    (data : Array Float32) (hroom : hi ≤ data.size) :
    ∃ data', ls.foldlM (fun (run : List Float32 × Array Float32) l => do
        let (area, data) ← l.write? g emissive run.2
        return (run.1 ++ [area], data)) (written, data) =
        some (written ++ rs.map (·.1), data') ∧ Written lo (rs.flatMap (·.2)) data data' := by
  induction h generalizing lo data written with
  | nil => exact ⟨data, by simp, .nil _ _⟩
  | @cons l r ls rs hr hrest ih =>
    obtain ⟨rfl, htiles⟩ := htiles
    have hstop : l.slot.faceOffset + l.slot.faceCount ≤ data.size := htiles.le.trans hroom
    obtain ⟨data₁, hrun, hwritten⟩ := ShapeLight.exists_write? hr hstop
    obtain ⟨data₂, hrun', hwritten'⟩ := ih htiles (written ++ [r.1]) data₁
      (hwritten.size.symm ▸ hroom)
    refine ⟨data₂, ?_, ?_⟩
    · rw [List.foldlM_cons, hrun]
      simpa using hrun'
    · rw [List.flatMap_cons]
      refine hwritten.append ?_
      rwa [ShapeLight.length_distribution hr]

/-- Writing the distributions of all instances in place gives those of the finished lights, and
their areas. -/
theorem Draft.write?_eq {d : Draft} (hd : d.Ordered) {t : Table} (h : d.finish g emissive = .ok t) :
    ∃ areas, d.write? g emissive = some (areas, t.faces.toArray) ∧
      t.emitters = d.emitters ++ List.zipWith ShapeLight.emitter d.shapeLights areas := by
  obtain ⟨finished, hfinished, hpure⟩ := bind_eq_ok.1 h
  obtain rfl := pure_eq_ok.1 hpure
  have hall : List.Forall₂ (fun l (r : ShapeLight × Float32 × List Float32) =>
      l.distribution g emissive = .ok r.2 ∧ r.1 = l) d.shapeLights finished := by
    refine (mapM_eq_ok.1 hfinished).imp fun l r hr => ?_
    obtain ⟨_, hdistribution, hpure⟩ := bind_eq_ok.1 hr
    obtain rfl := pure_eq_ok.1 hpure
    exact ⟨hdistribution, rfl⟩
  have hdistributions : List.Forall₂ (fun l r => l.distribution g emissive = .ok r) d.shapeLights
      (finished.map (·.2)) := List.forall₂_map_right_iff.2 (hall.imp fun _ _ => And.left)
  have hlengths : List.Forall₂ (fun r (b : List Float32) => b.length = r.length)
      (d.shapeLights.map (·.slot.range)) (finished.map (·.2.2)) := by
    rw [List.forall₂_map_left_iff, List.forall₂_map_right_iff]
    exact hall.imp fun _ _ hr => ShapeLight.length_distribution hr.1
  have hlength := hd.ranges.add_length_flatten hlengths
  obtain ⟨data', hrun, hwritten⟩ := exists_writes_all hdistributions hd.ranges []
    (.replicate d.faceTotal 0) (by rw [Array.size_replicate])
  refine ⟨finished.map (·.2.1), ?_, ?_⟩
  · rw [List.flatMap_map, List.flatMap_def] at hwritten
    rw [hwritten.eq_toArray (by rw [Array.size_replicate]; omega), List.map_map] at hrun
    rw [Draft.write?]
    refine hrun.trans ?_
    rw [List.flatMap_def]
    rfl
  · have hlights : d.shapeLights = finished.map (·.1) := by
      rw [← map_eq_map_of_forall₂ (f := id) (hall.imp fun _ _ hr => hr.2.symm), List.map_id]
    rw [hlights, List.zipWith_map, List.zipWith_self]

end Candela.Lighting
