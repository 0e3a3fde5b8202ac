import Mathlib
import Candela.Json.Record
import Candela.Proofs.Json.Reading
import Candela.Proofs.Result

/-!
# Records read back

A record whose fields have names of their own is read out of an object with one member for each
field by reading the fields one after the other (`readRecord_membersOf`). So is a record that has
been printed, out of what its values are read as then (`readRecord_writeRecord`): words and truth
values are themselves (`Field.read_word`, `Field.read_flag`), and so is a number that reads back
(`Field.read_single`), but what is printed as `null` is refused, and with it the whole record
(`Field.read_single_of_not_isFinite`, `foldlM_eq_none`).
-/

namespace Candela.Json

variable {σ : Type} {fields before after : List (Field σ)} {f : Field σ} {value : Field σ → Json}

/-! ## Members of a record -/

/-- Every field has a name of its own, and no other. -/
structure Distinct (fields : List (Field σ)) : Prop where
  nodup : (fields.map (·.name.name)).Nodup
  aliases : ∀ f ∈ fields, f.name.aliases = []

/-- A field among the others of a record, whose names are other ones. -/
theorem Distinct.exists_append (h : Distinct fields) (hf : f ∈ fields) : ∃ before after,
    fields = before ++ f :: after ∧ (∀ g ∈ before, g.name.name ≠ f.name.name) ∧
      ∀ g ∈ after, g.name.name ≠ f.name.name := by
  obtain ⟨before, after, rfl⟩ := List.append_of_mem hf
  have nodup := h.nodup
  rw [List.map_append, List.map_cons, List.nodup_append] at nodup
  obtain ⟨-, behind, apart⟩ := nodup
  refine ⟨before, after, rfl, fun g hg => ?_, fun g hg heq => ?_⟩
  · exact apart _ (List.mem_map_of_mem hg) _ List.mem_cons_self
  · exact (List.nodup_cons.1 behind).1 (heq ▸ List.mem_map_of_mem hg)

variable (value) in
/-- One member for each field. -/
def membersOf (fields : List (Field σ)) : List (String × Json) :=
  fields.map fun f => (f.name.name, value f)

/-- Every field has one member. -/
theorem uniqueMember?_membersOf (h : Distinct fields) (hf : f ∈ fields) :
    uniqueMember? f.name (membersOf value fields) = some (some (value f)) := by
  have alone : (membersOf value fields).filter (fun m => f.name.accepts m.1) =
      [(f.name.name, value f)] := by
    have accepts (name : String) : f.name.accepts name = (f.name.name == name) := by
      rw [FieldName.accepts, h.aliases f hf, List.contains_nil, Bool.or_false]
    obtain ⟨before, after, rfl, hbefore, hafter⟩ := h.exists_append hf
    have none {others : List (Field σ)} (hothers : ∀ g ∈ others, g.name.name ≠ f.name.name) :
        (membersOf value others).filter (fun m => f.name.accepts m.1) = [] := by
      refine List.filter_eq_nil_iff.2 fun m hm => ?_
      obtain ⟨g, hg, rfl⟩ := List.mem_map.1 hm
      rw [accepts, beq_iff_eq]
      exact (hothers g hg).symm
    rw [membersOf, List.map_append, List.map_cons, List.filter_append, List.filter_cons_of_pos]
    · exact congrArg₂ (· ++ _ :: ·) (none hbefore) (none hafter)
    · rw [accepts, beq_self_eq_true]
  rw [uniqueMember?, alone]

/-- Every field of an object with these members is given. -/
theorem fields?_membersOf (h : Distinct fields) :
    (Json.object (membersOf value fields)).fields? (fields.map (·.name)) =
      some ⟨fields.map fun f => (f.name.name, some (value f)), false⟩ := by
  have given : (fields.map (·.name)).mapM (fun name => do
      return (name.name, ← uniqueMember? name (membersOf value fields))) =
      some (fields.map fun f => (f.name.name, some (value f))) := by
    refine mapM_eq_some.2 ?_
    rw [List.forall₂_map_left_iff, List.forall₂_map_right_iff, List.forall₂_same]
    intro f hf
    rw [uniqueMember?_membersOf h hf]
    rfl
  rw [fields?, given]
  rfl

/-- The member of a field is found. -/
theorem find?_given (h : Distinct fields) (hf : f ∈ fields) (positional : Bool) :
    Fields.find? ⟨fields.map fun f => (f.name.name, some (value f)), positional⟩ f.name.name =
      some (value f) := by
  obtain ⟨before, after, rfl, hbefore, -⟩ := h.exists_append hf
  have found : ((before ++ f :: after).map fun f => (f.name.name, some (value f))).lookup
      f.name.name = some (some (value f)) := by
    refine List.lookup_eq_some_iff.2 ⟨_, _, by rw [List.map_append, List.map_cons], fun m hm => ?_⟩
    obtain ⟨g, hg, rfl⟩ := List.mem_map.1 hm
    exact bne_iff_ne.2 (hbefore g hg).symm
  rw [Fields.find?, found]
  rfl

/-- A record is read field by field. -/
theorem readRecord_membersOf (h : Distinct fields) (absent : σ) :
    readRecord fields absent (.object (membersOf value fields)) =
      fields.foldlM (fun s f => f.read (value f) s) absent := by
  have steps (part : List (Field σ)) (hpart : ∀ f ∈ part, f ∈ fields) (s : σ) :
      readFields ⟨fields.map fun f => (f.name.name, some (value f)), false⟩ part s =
        part.foldlM (fun s f => f.read (value f) s) s := by
    induction part generalizing s with
    | nil => rfl
    | cons f part ih =>
      rw [readFields, find?_given h (hpart f List.mem_cons_self), List.foldlM_cons]
      exact congrArg (f.read (value f) s).bind
        (funext (ih fun g hg => hpart g (List.mem_cons_of_mem _ hg)))
  rw [readRecord, fields?_membersOf h]
  exact steps fields (fun _ hf => hf) absent

/-! ## Printed records -/

variable {l : Decimal.Layout}

/-- A layout that has no text for what is not finite. -/
structure Nulls (l : Decimal.Layout) : Prop where
  infinity : l.infinity = "null"
  negativeInfinity : l.negativeInfinity = "null"
  nan : l.nan = "null"

theorem Nulls.single_eq (h : Nulls l) {x : Float32} (hx : x.isFinite = false) :
    l.single x = "null" := by
  rw [Decimal.Layout.single]
  cases hcontent : Binary.ofSingle x with
  | finite negative m e =>
    rw [Single.isFinite_iff.2 ⟨negative, m, e, hcontent⟩] at hx
    cases hx
  | infinite negative =>
    cases negative with
    | false => exact h.infinity
    | true => exact h.negativeInfinity
  | nan => exact h.nan

/-- What a single-precision number is read as once it has been printed, and any other value as
it is. -/
def reread (l : Decimal.Layout) : Json → Json
  | .number (.single x) => (parse? (l.single x)).getD .null
  | j => j

/-- A value without parts, natural if it is a whole number. -/
def IsPlain : Json → Prop
  | .bool _ | .string _ | .number (.single _) => True
  | .number (.integer n) => 0 ≤ n ∧ n < 2 ^ 64
  | _ => False

theorem Spells.parse?_eq {text : String} {j : Json} (h : Spells text.toList j) :
    parse? text = some j := by
  have read := h (2 * text.toList.length + 1) 0 [] ends_nil
  rw [List.append_nil] at read
  rw [parse?, read]
  rfl

/-- A number is read as something, wherever it is printed. -/
theorem spells_single (h : Nulls l) (x : Float32) :
    Spells (l.single x).toList (reread l (ofSingle x)) := by
  obtain ⟨j, hj⟩ : ∃ j, Spells (l.single x).toList j := by
    by_cases hx : x.isFinite = true
    · exact exists_spells_single l hx
    · rw [h.single_eq (Bool.eq_false_iff.2 hx)]
      exact ⟨_, spells_null⟩
  rw [ofSingle, reread, hj.parse?_eq]
  exact hj

theorem rereads_of_isPlain (h : Nulls l) {v : Json} (hv : IsPlain v) :
    Rereads l v (reread l v) := by
  intro depth
  match v, hv with
  | .bool true, _ =>
    show Spells "true".toList _
    exact spells_true
  | .bool false, _ =>
    show Spells "false".toList _
    exact spells_false
  | .string s, _ => exact spells_quote s
  | .number (.single x), _ => exact spells_single h x
  | .number (.integer n), hn =>
    obtain ⟨n, rfl⟩ := Int.eq_ofNat_of_zero_le hn.1
    exact spells_natural (by exact_mod_cast hn.2)

/-- A number is the one that is read once it has been printed. -/
def ReadsBack (l : Decimal.Layout) (x : Float32) : Prop :=
  (parse? (l.single x)).bind toSingle? = some x

theorem ReadsBack.toSingle?_reread {x : Float32} (h : ReadsBack l x) :
    toSingle? (reread l (ofSingle x)) = some x := by
  obtain ⟨j, hj, hx⟩ := Option.bind_eq_some_iff.1 h
  rw [ofSingle, reread, hj]
  exact hx

/-- What is printed as `null` is not read as a number. -/
theorem Nulls.toSingle?_reread (h : Nulls l) {x : Float32} (hx : x.isFinite = false) :
    toSingle? (reread l (ofSingle x)) = none := by
  have null : parse? "null" = some .null := Spells.parse?_eq spells_null
  rw [ofSingle, reread, h.single_eq hx, null]
  rfl

namespace Field

variable (name : FieldName) (s : σ)

theorem isPlain_word (get : σ → UInt32) (set : UInt32 → σ → σ) :
    IsPlain ((word name get set).write s) := by
  have fits := (get s).toNat_lt
  show (0 : Int) ≤ (get s).toNat ∧ ((get s).toNat : Int) < 2 ^ 64
  omega

theorem read_word (get : σ → UInt32) (set : UInt32 → σ → σ) (s' : σ) :
    (word name get set).read (reread l ((word name get set).write s)) s' =
      some (set (get s) s') := by
  have fits : (0 : Int) ≤ (get s).toNat ∧ ((get s).toNat : Int) < (2 ^ 32 : Nat) :=
    ⟨Int.natCast_nonneg _, Int.ofNat_lt.2 (get s).toNat_lt⟩
  have number : toWord? (ofNat (get s).toNat) = some (get s) := by
    rw [toWord?, ofNat, toNatBelow?, if_pos fits, Option.map_some, Int.toNat_natCast,
      Nat.toUInt32_eq, UInt32.ofNat_toNat]
  have written : reread l ((word name get set).write s) = ofNat (get s).toNat := rfl
  rw [written, word, of]
  dsimp only
  rw [number, Option.map_some]

theorem read_flag (get : σ → Bool) (set : Bool → σ → σ) (s' : σ) :
    (flag name get set).read (reread l ((flag name get set).write s)) s' =
      some (set (get s) s') :=
  rfl

variable (get : σ → Float32) (set : Float32 → σ → σ) (s' : σ)

theorem read_single (h : ReadsBack l (get s)) :
    (single name get set).read (reread l ((single name get set).write s)) s' =
      some (set (get s) s') := by
  show (toSingle? (reread l (ofSingle (get s)))).map _ = _
  rw [h.toSingle?_reread]
  rfl

theorem read_single_of_not_isFinite (h : Nulls l) (hx : (get s).isFinite = false) :
    (single name get set).read (reread l ((single name get set).write s)) s' = none := by
  show (toSingle? (reread l (ofSingle (get s)))).map _ = _
  rw [h.toSingle?_reread hx]
  rfl

end Field

/-- A record of which one field is not read is not read. -/
theorem foldlM_eq_none {α β : Type} {step : β → α → Option β} {l : List α} {a : α} (ha : a ∈ l)
    (hnone : ∀ b, step b a = none) (b : β) : l.foldlM step b = none := by
  induction l generalizing b with
  | nil => cases ha
  | cons a' l ih =>
    rw [List.foldlM_cons]
    rcases List.mem_cons.1 ha with rfl | ha
    · rw [hnone]
      rfl
    · cases step b a' with
      | none => rfl
      | some b' => exact ih ha b'

/-- A printed record is read field by field. -/
theorem readRecord_writeRecord (h : Nulls l) (hfields : Distinct fields) (hne : fields ≠ [])
    (s : σ) (hplain : ∀ f ∈ fields, IsPlain (f.write s)) (absent : σ) :
    (parse? (pretty l (.object (writeRecord fields s)))).bind (readRecord fields absent) =
      fields.foldlM (fun s' f => f.read (reread l (f.write s)) s') absent := by
  have members : RereadMembers l (writeRecord fields s)
      (membersOf (fun f => reread l (f.write s)) fields) := by
    refine List.forall₂_map_left_iff.2 (List.forall₂_map_right_iff.2 (List.forall₂_same.2 ?_))
    exact fun f hf => ⟨rfl, rereads_of_isPlain h (hplain f hf)⟩
  rw [parse?_pretty members (by rwa [writeRecord, Ne, List.map_eq_nil_iff])]
  exact readRecord_membersOf hfields absent

end Candela.Json
