import Candela.Proofs.Keyed
import Candela.Proofs.Result
import Candela.Proofs.Text.Names
import Candela.Scene.Description

/-!
# Scenes of descriptions

A description becomes a scene entry by entry, in the order of the names (`Description.Converts`).
The one thing that is not an entry of its own is the world's graph of older exports. It becomes a
material unless there is a world light, under a name that is searched for among names of its own
(`worldName_inj`), and the search ends with the first one that no material has
(`freshWorldName_first`). So no material is replaced, whatever the materials are called.
-/

namespace Candela.Scene

variable {d : Description} {base name : String} {scene : Scene}

/-! ## The name for the world's graph -/

/-- Zeros before a number do not change it. -/
theorem ofDigitChars_zeros (k : Nat) (digits : List Char) :
    Nat.ofDigitChars 10 (List.replicate k '0' ++ digits) 0 = Nat.ofDigitChars 10 digits 0 := by
  induction k with
  | zero => rfl
  | succ k ih => exact ih

/-- The candidates for the name differ. -/
theorem worldName_inj {m n : Nat} (h : worldName m = worldName n) : m = n := by
  have hnumbered {n : Nat} (hn : n ≠ 0) : ∃ k, (worldName n).toList =
      "World.".toList ++ (List.replicate k '0' ++ Nat.toDigits 10 n) := by
    refine ⟨3 - (Nat.toDigits 10 n).length, ?_⟩
    rw [worldName, if_neg hn]
    simp only [String.toList_append, String.toList_ofList]
  have hplain {n : Nat} (hn : n ≠ 0) : worldName 0 ≠ worldName n := by
    intro heq
    obtain ⟨k, hk⟩ := hnumbered hn
    rw [← heq] at hk
    have hlengths := congrArg List.length hk
    rw [List.length_append] at hlengths
    have hshort : (worldName 0).toList.length < "World.".toList.length := by decide
    omega
  by_cases hm : m = 0 <;> by_cases hn : n = 0
  · rw [hm, hn]
  · exact absurd (hm ▸ h) (hplain hn)
  · exact absurd (hn ▸ h).symm (hplain hm)
  · obtain ⟨k, hk⟩ := hnumbered hm
    obtain ⟨l, hl⟩ := hnumbered hn
    have hdigits := List.append_cancel_left (hk.symm.trans (h ▸ hl))
    have hvalue := congrArg (fun digits => Nat.ofDigitChars 10 digits 0) hdigits
    simpa [ofDigitChars_zeros] using hvalue

/-- The search for the name ends with a free one. -/
theorem freshWorldName_notMem (taken : List String) : freshWorldName taken ∉ taken :=
  Text.firstFree_notMem (fun _ _ => worldName_inj) taken.length 0 (Nat.le_refl _)

/-- Whatever names are taken, the search for the name comes to an end: it tries no more candidates
than there are names taken and one, and ends with the first one that is free. -/
theorem freshWorldName_first (taken : List String) :
    ∃ n ≤ taken.length, freshWorldName taken = worldName n ∧ worldName n ∉ taken ∧
      ∀ m < n, worldName m ∈ taken := by
  obtain ⟨n, -, hbound, heq, hbefore⟩ : ∃ n, 0 ≤ n ∧ n ≤ 0 + taken.length ∧
      Text.firstFree taken worldName taken.length 0 = worldName n ∧
      ∀ m, 0 ≤ m → m < n → worldName m ∈ taken :=
    Text.exists_firstFree_first taken.length 0
  have hfree : Text.firstFree taken worldName taken.length 0 ∉ taken := freshWorldName_notMem taken
  exact ⟨n, Nat.zero_add taken.length ▸ hbound, heq, heq ▸ hfree,
    fun m hm => hbefore m (Nat.zero_le m) hm⟩

/-! ## Entries -/

/-- Whether a described light is the world. -/
def LightEntry.isWorld (l : LightEntry) : Bool := l.type.toUpper = "WORLD"

/-- A light is the world if its type says so. -/
theorem LightEntry.isWorld_eq {l : LightEntry} {k : LightKind} (h : l.kind name = .ok k) :
    l.isWorld = decide (k.type = .world) := by
  unfold kind at h
  unfold isWorld
  dsimp only at h
  split at h
  case h_1 htype =>
    cases h
    simp [htype, LightKind.type]
  case h_6 => cases h
  -- the types with parameters
  all_goals
    next htype =>
    split at h
    · cases h
      simp [htype, LightKind.type]
    · cases h

/-- The shape of a described one: it has its name and palette, or the palette that stands in for
none. -/
structure ShapeEntry.Gives (base : String) (fallback : Option String) (e : String × ShapeEntry)
    (s : Shape) : Prop where
  name : s.name = e.1
  path : s.path = Text.joinPath base e.2.path
  palette : s.palette = if e.2.palette = [] then fallback.toList else e.2.palette
  palette_ne : s.palette ≠ []

/-- The light of a described one: it has its name and all that is said of it. -/
structure LightEntry.Gives (e : String × LightEntry) (l : Light) : Prop where
  name : l.name = e.1
  material : l.material = e.2.material
  castsShadows : l.castsShadows = e.2.castsShadows
  usesMis : l.usesMis = e.2.usesMis
  kind : e.2.kind e.1 = .ok l.kind
  isWorld : l.isWorld = e.2.isWorld

/-- What is made of a described shape. -/
theorem ShapeEntry.gives_of_toShape {fallback : Option String} {e : String × ShapeEntry} {s : Shape}
    (h : e.2.toShape base fallback e.1 = .ok s) : ShapeEntry.Gives base fallback e s := by
  obtain ⟨name, type, path, palette⟩ := e
  unfold toShape at h
  dsimp only at h
  by_cases htype : type.toLower ≠ "ply"
  · rw [if_pos htype] at h
    cases h
  rw [if_neg htype] at h
  cases palette with
  | nil =>
    cases fallback with
    | none => cases h
    | some material =>
      cases pure_eq_ok.1 h
      exact ⟨rfl, rfl, rfl, List.cons_ne_nil _ _⟩
  | cons material palette =>
    cases pure_eq_ok.1 h
    exact ⟨rfl, rfl, rfl, List.cons_ne_nil _ _⟩

/-- What is made of a described light. -/
theorem LightEntry.gives_of_toLight {e : String × LightEntry} {l : Light}
    (h : e.2.toLight e.1 = .ok l) : LightEntry.Gives e l := by
  obtain ⟨k, hk, h⟩ := bind_eq_ok.1 h
  cases pure_eq_ok.1 h
  exact ⟨rfl, rfl, rfl, rfl, hk, (LightEntry.isWorld_eq hk).symm⟩

/-! ## Whole descriptions -/

namespace Description

/-- The world's graph, unless one of the described lights is the world. -/
def ownWorld? (d : Description) : Option Graph :=
  if d.lights.values.any LightEntry.isWorld then none else d.world

/-- The materials and lights of a scene, given what the described lights have become: the world's
graph is put under a name of its own and gets a light. -/
def withWorld (d : Description) (lights : List Light) : Keyed Graph × List Light :=
  match d.ownWorld? with
  | none => (d.materials, lights)
  | some g =>
    let name := freshWorldName d.materials.keys
    (d.materials.insert name g, lights ++ [worldLight name])

/-- There is a world light if one is described. -/
theorem any_isWorld {lights : List Light}
    (h : List.Forall₂ LightEntry.Gives d.lights.entries lights) :
    d.lights.values.any LightEntry.isWorld = lights.any Light.isWorld := by
  have hworlds : d.lights.entries.map (fun e => e.2.isWorld) = lights.map Light.isWorld :=
    map_eq_map_of_forall₂ (h.imp fun _ _ hl => hl.isWorld.symm)
  calc d.lights.values.any LightEntry.isWorld
    _ = (d.lights.entries.map fun e => e.2.isWorld).any id := by
      rw [Keyed.values, List.any_map, List.any_map]
      rfl
    _ = lights.any Light.isWorld := by
      rw [hworlds, List.any_map]
      rfl

theorem withWorld_of_none (hown : d.ownWorld? = none) (lights : List Light) :
    d.withWorld lights = (d.materials, lights) := by
  rw [withWorld, hown]

theorem withWorld_of_some {g : Graph} (hown : d.ownWorld? = some g) (lights : List Light) :
    d.withWorld lights = (d.materials.insert (freshWorldName d.materials.keys) g,
      lights ++ [worldLight (freshWorldName d.materials.keys)]) := by
  rw [withWorld, hown]

/-- If the world has to become a light, none of the described lights is one. -/
theorem filter_isWorld_eq_nil {g : Graph} (hown : d.ownWorld? = some g) {lights : List Light}
    (h : List.Forall₂ LightEntry.Gives d.lights.entries lights) :
    lights.filter Light.isWorld = [] := by
  rw [ownWorld?, any_isWorld h] at hown
  split at hown
  · cases hown
  · next hany =>
    rw [Bool.not_eq_true, List.any_eq_false] at hany
    exact List.filter_eq_nil_iff.2 hany

/-- What a conversion is put together from. -/
theorem of_toScene (h : d.toScene base = .ok scene) : ∃ lights,
    List.Forall₂ (ShapeEntry.Gives base d.materials.keys.head?) d.shapes.entries scene.shapes ∧
      List.Forall₂ LightEntry.Gives d.lights.entries lights ∧
      scene.entities = d.entities.entries.map (fun e => e.2.toEntity e.1) ∧
      (scene.materials, scene.lights) = d.withWorld lights := by
  obtain ⟨shapes, hshapes, h⟩ := bind_eq_ok.1 h
  obtain ⟨lights, hlights, h⟩ := bind_eq_ok.1 h
  have hgives := (mapM_eq_ok.1 hlights).imp fun _ _ => LightEntry.gives_of_toLight
  have hany := any_isWorld hgives
  refine ⟨lights, ?_⟩
  have hshapes := (mapM_eq_ok.1 hshapes).imp fun _ _ => ShapeEntry.gives_of_toShape
  unfold withWorld ownWorld?
  unfold addWorld at h
  rw [hany]
  cases hworld : d.world with
  | none =>
    rw [hworld] at h
    cases pure_eq_ok.1 h
    rw [ite_self]
    exact ⟨hshapes, hgives, rfl, rfl⟩
  | some g =>
    rw [hworld] at h
    cases hlight : lights.any Light.isWorld with
    | true =>
      simp only [hlight, if_true] at h
      cases pure_eq_ok.1 h
      exact ⟨hshapes, hgives, rfl, rfl⟩
    | false =>
      simp only [hlight, Bool.false_eq_true, if_false] at h
      cases pure_eq_ok.1 h
      exact ⟨hshapes, hgives, rfl, rfl⟩

/-- Converting a description loses nothing and replaces nothing. -/
structure Converts (d : Description) (base : String) (scene : Scene) : Prop where
  kept : ∀ name g, d.materials.get? name = some g → scene.materials.get? name = some g
  shapes : List.Forall₂ (ShapeEntry.Gives base d.materials.keys.head?) d.shapes.entries scene.shapes
  entities : List.Forall₂ (fun e r => r = ⟨e.1, e.2.shape, e.2.visibility, e.2.transform⟩)
    d.entities.entries scene.entities
  lights : List.Forall₂ LightEntry.Gives d.lights.entries (scene.lights.take d.lights.size)
  /-- A world that is no light yet becomes one material, under a name that no material has, and one
  light, which is the only world light. -/
  added : ∀ g, d.ownWorld? = some g →
    freshWorldName d.materials.keys ∉ d.materials.keys ∧
      (∀ name, scene.materials.get? name =
        if name = freshWorldName d.materials.keys then some g else d.materials.get? name) ∧
      scene.materials.size = d.materials.size + 1 ∧
      scene.lights.drop d.lights.size = [worldLight (freshWorldName d.materials.keys)] ∧
      scene.lights.filter Light.isWorld = [worldLight (freshWorldName d.materials.keys)]
  unchanged : d.ownWorld? = none →
    scene.materials = d.materials ∧ scene.lights.drop d.lights.size = []

/-- What is put together loses nothing and replaces nothing. -/
theorem converts_of_toScene (h : d.toScene base = .ok scene) : d.Converts base scene := by
  obtain ⟨lights, hshapes, hlights, hentities, hworld⟩ := of_toScene h
  have hlength : d.lights.size = lights.length := hlights.length_eq
  have hentities : List.Forall₂ (fun e r => r = ⟨e.1, e.2.shape, e.2.visibility, e.2.transform⟩)
      d.entities.entries scene.entities := by
    rw [hentities, List.forall₂_map_right_iff, List.forall₂_same]
    exact fun _ _ => rfl
  cases hown : d.ownWorld? with
  | none =>
    rw [withWorld_of_none hown] at hworld
    obtain ⟨hmaterials, rfl⟩ := Prod.mk.inj hworld
    refine ⟨fun name g hg => hmaterials ▸ hg, hshapes, hentities, ?_, fun g hg => ?_, fun _ => ?_⟩
    · rwa [hlength, List.take_length]
    · rw [hown] at hg
      cases hg
    · exact ⟨hmaterials, by rw [hlength, List.drop_length]⟩
  | some g =>
    rw [withWorld_of_some hown] at hworld
    obtain ⟨hmaterials, hall⟩ := Prod.mk.inj hworld
    have hfree := freshWorldName_notMem d.materials.keys
    have hget : ∀ name, scene.materials.get? name =
        if name = freshWorldName d.materials.keys then some g else d.materials.get? name := by
      intro name
      rw [hmaterials]
      exact Keyed.get?_insert _ _ _ _
    refine ⟨fun name g' hg' => ?_, hshapes, hentities, ?_, fun g' hg' => ?_, fun hnone => ?_⟩
    · rw [hget, if_neg, hg']
      rintro rfl
      exact hfree (Keyed.mem_keys_of_get? hg')
    · rwa [hall, hlength, List.take_left]
    · rw [hown] at hg'
      cases hg'
      refine ⟨hfree, hget, ?_, ?_, ?_⟩
      · rw [hmaterials]
        exact Keyed.size_insert_of_notMem hfree g
      · rw [hall, hlength, List.drop_left]
      · rw [hall, List.filter_append, filter_isWorld_eq_nil hown hlights]
        rfl
    · rw [hown] at hnone
      cases hnone

end Description

/-! ## Nothing is lost -/

/-- Whatever description is accepted, its materials are all there with their graphs, and every shape,
entity and light has become one record of its own name, in the order of the names, where no shape is
without a palette. Only the world's graph may add something: one material under a new name and one
world light, if no described light is the world. The search for the name ends for any names that are
taken. -/
theorem toScene_keeps (h : d.toScene base = .ok scene) :
    d.Converts base scene ∧ ∀ taken : List String, ∃ n ≤ taken.length,
      freshWorldName taken = worldName n ∧ worldName n ∉ taken ∧ ∀ m < n, worldName m ∈ taken :=
  ⟨Description.converts_of_toScene h, freshWorldName_first⟩

/-- A lamp that is called like the world. -/
def lamp : LightEntry where
  type := "Point"
  material := "Red"
  castsShadows := true
  usesMis := false
  parameters := .object [
    ("location", .array [.number (.integer 0), .number (.integer 0), .number (.integer 2)]),
    ("power", .number (.integer 100)),
    ("color", .array [.number (.integer 1), .number (.integer 1), .number (.integer 1)])]

/-- A description of an older export, with materials and a light that are called like the world. -/
def olderExport : Description where
  materials := .ofList [("Red", ⟨.ofList [("Output", ⟨.outputMaterial, .empty⟩)]⟩),
    ("World", ⟨.ofList [("Out", ⟨.outputLight, .empty⟩)]⟩), ("World.001", ⟨.empty⟩)]
  world := some ⟨.ofList [("Out", ⟨.outputWorld, .empty⟩)]⟩
  lights := .ofList [("World", lamp)]
  shapes := .ofList [("Cube", ⟨"PLY", "meshes/cube.ply", []⟩),
    ("Ball", ⟨"ply", "/ball.ply", ["World"]⟩)]
  entities := .ofList [("Cube.001", ⟨"Cube", { shadow := false }, .identity⟩)]
  viewpoint := none

/-- The world becomes the third one of its name. The materials, the light and the palettes of the
others stay theirs. -/
theorem toScene_keeps_olderExport :
    ∃ scene, olderExport.toScene "/scenes" = .ok scene ∧ olderExport.Converts "/scenes" scene ∧
      scene.materials.get? "World.002" = olderExport.world ∧
      (∀ name ∈ ["Red", "World", "World.001"],
        scene.materials.get? name = olderExport.materials.get? name) ∧
      scene.lights.filter Light.isWorld = [worldLight "World.002"] := by
  have hok : (olderExport.toScene "/scenes").toBool = true := by decide +kernel
  have hname : freshWorldName olderExport.materials.keys = "World.002" := by decide +kernel
  have hlamp : olderExport.lights.values.any LightEntry.isWorld = false := by decide +kernel
  have hown : olderExport.ownWorld? = olderExport.world := by
    rw [Description.ownWorld?, hlamp]
    rfl
  cases h : olderExport.toScene "/scenes" with
  | error e =>
    rw [h] at hok
    cases hok
  | ok scene =>
    obtain ⟨hconverts, -⟩ := toScene_keeps h
    obtain ⟨-, hget, -, -, hlights⟩ := hconverts.added _ hown
    rw [hname] at hget hlights
    refine ⟨scene, rfl, hconverts, ?_, fun name hmem => ?_, hlights⟩
    · rw [hget, if_pos rfl]
      rfl
    · have hother : ∀ name ∈ ["Red", "World", "World.001"], name ≠ "World.002" := by decide
      rw [hget, if_neg (hother name hmem)]

end Candela.Scene
