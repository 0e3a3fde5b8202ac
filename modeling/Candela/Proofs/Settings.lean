import Mathlib
import Candela.Proofs.Binary.Nearest
import Candela.Proofs.Json.Record
import Candela.Proofs.Single.Share
import Candela.Proofs.Text.Words
import Candela.Settings

/-!
# Settings

Settings that nothing can be rendered with are replaced, value by value, and everything else is kept
(`Settings.validated_limits`). The two times are not among what is replaced: a time below zero, and
what is no number, counts as zero, but a time of `2 ^ 64` seconds or more has no nanoseconds
(`Settings.nanoseconds?_eq_none_iff`), and a settings file can ask for it
(`Settings.ageFile_unbounded`).

Settings that are saved are loaded again as they are when validated, if all their numbers are finite
(`Settings.load_save`). A number that is not finite is `null` in the file, which is then not read at
all, so all the others are lost with it (`Settings.patientFile_lost`).
-/

namespace Candela

/-! ## Choices -/

/-- A choice is read from its name. -/
structure Named {α : Type} [DecidableEq α] (names : List (α × String)) : Prop where
  find_lookup : ∀ a, (names.find? (·.2 = (names.lookup a).getD "")).map (·.1) = some a

theorem Tonemapping.named : Named names := ⟨fun a => by cases a <;> decide⟩

theorem SamplingMode.named : Named names := ⟨fun a => by cases a <;> decide⟩

theorem OutputChannel.named : Named names := ⟨fun a => by cases a <;> decide⟩

theorem Named.read_choiceField {σ α : Type} [DecidableEq α] {names : List (α × String)}
    (h : Named names) (l : Decimal.Layout) (name : String) (get : σ → α) (set : α → σ → σ)
    (s s' : σ) :
    (choiceField name names get set).read
        (Json.reread l ((choiceField name names get set).write s)) s' = some (set (get s) s') := by
  show ((names.find? (·.2 = (names.lookup (get s)).getD "")).map (·.1)).map _ = _
  rw [h.find_lookup]
  rfl

namespace Settings

variable {s : Settings} {low high w : UInt32} {x : Float32} {q : ℚ}

open Single (Denotes IsInfinity nearestEven two_zpow_pos)

/-! ## Bounds -/

/-- A clamped word is within its bounds. -/
theorem clampWord_mem (h : low ≤ high) (w : UInt32) :
    low ≤ clampWord low high w ∧ clampWord low high w ≤ high := by
  unfold clampWord
  split
  · exact ⟨UInt32.le_refl low, h⟩
  next hlow =>
    split
    · exact ⟨h, UInt32.le_refl high⟩
    next hhigh => exact ⟨UInt32.not_lt.1 hlow, UInt32.not_lt.1 hhigh⟩

/-- A word that is within its bounds stays as it is. -/
theorem clampWord_eq_self (hlow : low ≤ w) (hhigh : w ≤ high) : clampWord low high w = w := by
  rw [clampWord, if_neg (UInt32.not_lt.2 hlow), if_neg (UInt32.not_lt.2 hhigh)]

theorem clampWord_eq_self_iff (h : low ≤ high) :
    clampWord low high w = w ↔ low ≤ w ∧ w ≤ high :=
  ⟨fun heq => heq ▸ clampWord_mem h w, fun hw => clampWord_eq_self hw.1 hw.2⟩

/-- A number that a picture can be exposed by. -/
def Exposes (x : Float32) : Prop := x.isFinite = true ∧ 0 ≤ x

/-- It is what is not replaced. -/
theorem exposes_iff : Exposes x ↔ (!x.isFinite || decide (x < 0)) = false := by
  rw [Bool.or_eq_false_iff, Bool.not_eq_false', decide_eq_false_iff_not]
  refine and_congr_right fun hx => ?_
  constructor
  · intro hle hlt
    exact Single.not_lt_self _ (Single.lt_of_le_of_lt hle hlt)
  · intro hlt
    exact Single.zero_le_iff.2 (.inl (Single.exists_denotes_iff.2 ⟨hx, hlt⟩))

theorem exposes_one : Exposes 1 := by
  unfold Exposes
  decide +kernel

theorem exposes_validated (s : Settings) : Exposes s.validated.exposure := by
  show Exposes (if !s.exposure.isFinite || s.exposure < 0 then 1 else s.exposure)
  split
  · exact exposes_one
  next h => exact exposes_iff.2 (Bool.eq_false_iff.2 h)

theorem exposure_validated_eq_self_iff :
    s.validated.exposure = s.exposure ↔ Exposes s.exposure := by
  refine ⟨fun heq => heq ▸ exposes_validated s, fun h => ?_⟩
  show (if !s.exposure.isFinite || s.exposure < 0 then 1 else s.exposure) = _
  rw [exposes_iff.1 h]
  rfl

/-- Settings that can be rendered with. -/
structure Usable (s : Settings) : Prop where
  maxDepth : 1 ≤ s.maxDepth ∧ s.maxDepth ≤ 64
  environmentExponent : 1 ≤ s.environmentExponent ∧ s.environmentExponent ≤ 14
  exposure : Exposes s.exposure

theorem usable_validated (s : Settings) : s.validated.Usable where
  maxDepth := clampWord_mem (by decide) _
  environmentExponent := clampWord_mem (by decide) _
  exposure := exposes_validated s

theorem validated_eq_self (h : s.Usable) : s.validated = s := by
  have depth : s.validated.maxDepth = s.maxDepth := clampWord_eq_self h.maxDepth.1 h.maxDepth.2
  have exponent : s.validated.environmentExponent = s.environmentExponent :=
    clampWord_eq_self h.environmentExponent.1 h.environmentExponent.2
  have exposure := exposure_validated_eq_self_iff.2 h.exposure
  calc s.validated = { s with
          maxDepth := s.validated.maxDepth
          environmentExponent := s.validated.environmentExponent
          exposure := s.validated.exposure } := rfl
    _ = s := by rw [depth, exponent, exposure]

/-! ## Times -/

/-- The first time that is too long, `2 ^ 64` seconds. -/
def endless : Float32 := 18446744073709551616

theorem denotes_endless : Denotes endless (2 ^ 64) := by
  have exact : (2 : ℚ) ^ 64 = ((2 ^ 64 : ℕ) : ℚ) := by push_cast; rfl
  rw [exact]
  unfold Denotes
  decide +kernel

/-- A whole or a broken number of some size, by its significand and its exponent. -/
theorem two_pow_le_iff (m : ℕ) (e : ℤ) :
    2 ^ 64 * 2 ^ (-e).toNat ≤ m * 2 ^ e.toNat ↔ (2 : ℚ) ^ 64 ≤ m * 2 ^ e := by
  rw [Binary.zpow_eq_div two_ne_zero, ← mul_div_assoc, le_div_iff₀ (by positivity)]
  exact_mod_cast Iff.rfl

/-- A number that is not negative has nanoseconds, unless it is too large. -/
theorem nanoseconds?_of_denotes (h : Denotes x q) :
    nanoseconds? x = none ↔ (2 : ℚ) ^ 64 ≤ q := by
  have content := Single.ofSingle_eq x
  obtain ⟨⟨sign, hx⟩, rfl⟩ | ⟨m, e, hm, hx, rfl, -⟩ := h.cases <;> rw [hx] at content
  · have some : nanoseconds? x = some 0 := by
      rw [nanoseconds?, content]
      cases sign <;> decide
    rw [some]
    exact iff_of_false (Option.some_ne_none _) (by norm_num)
  · rw [← two_pow_le_iff, nanoseconds?, content]
    simp only [Single.contentOf, Single.isMinus, Bool.false_eq_true, if_false]
    split
    next large => exact iff_of_true rfl large
    next small => exact iff_of_false (Option.some_ne_none _) small

theorem nanoseconds?_zero : nanoseconds? 0 ≠ none := fun h =>
  absurd ((nanoseconds?_of_denotes Single.denotes_zero).1 h) (by norm_num)

/-- What is below zero, or no number, counts as zero, so only what is too long has no
nanoseconds. -/
theorem nanoseconds?_eq_none_iff (x : Float32) :
    nanoseconds? (Single.max x 0) = none ↔ endless ≤ x := by
  have positive : 0 ≤ endless := Single.zero_le_iff.2 (.inl ⟨_, denotes_endless⟩)
  unfold Single.max
  split
  next nan =>
    refine iff_of_false nanoseconds?_zero fun hle => ?_
    rw [(Single.isNaN_of_le hle).2] at nan
    cases nan
  next number =>
    have number := Bool.eq_false_iff.2 number
    split
    next below =>
      refine iff_of_false nanoseconds?_zero fun hle => ?_
      exact Single.not_lt_self 0 (Single.lt_of_le_of_lt (Single.le_trans positive hle) below)
    next above =>
      have above : 0 ≤ x :=
        (Single.not_lt_iff number Single.denotes_zero.isNaN_eq_false).1 above
      rcases Single.zero_le_iff.1 above with ⟨q, hq⟩ | infinite
      · rw [nanoseconds?_of_denotes hq, denotes_endless.le_iff hq]
      · refine iff_of_true ?_ (Single.le_of_lt (denotes_endless.lt_infinity infinite))
        rw [nanoseconds?, Single.ofSingle_eq, infinite]
        rfl

/-! ## Validated settings -/

/-- What becomes of settings that are validated. -/
structure Limits (s v : Settings) : Prop where
  usable : v.Usable
  idempotent : v.validated = v
  /-- Exactly the usable values are kept, each of them on its own. -/
  maxDepth : v.maxDepth = s.maxDepth ↔ 1 ≤ s.maxDepth ∧ s.maxDepth ≤ 64
  environmentExponent : v.environmentExponent = s.environmentExponent ↔
    1 ≤ s.environmentExponent ∧ s.environmentExponent ≤ 14
  exposure : v.exposure = s.exposure ↔ s.exposure.isFinite = true ∧ 0 ≤ s.exposure
  kept : v = { s with
    maxDepth := v.maxDepth, environmentExponent := v.environmentExponent, exposure := v.exposure }
  /-- The times are those of the settings, and there is one unless it is too long. -/
  slowFrame : v.slowFrame? = none ↔ endless ≤ s.slowFrameSeconds
  cooldown : v.cooldown? = none ↔ endless ≤ s.cooldownSeconds

theorem limits_validated (s : Settings) : Limits s s.validated where
  usable := usable_validated s
  idempotent := validated_eq_self (usable_validated s)
  maxDepth := clampWord_eq_self_iff (by decide)
  environmentExponent := clampWord_eq_self_iff (by decide)
  exposure := exposure_validated_eq_self_iff
  kept := rfl
  slowFrame := nanoseconds?_eq_none_iff s.slowFrameSeconds
  cooldown := nanoseconds?_eq_none_iff s.cooldownSeconds

/-- What is loaded has been validated. -/
theorem validated_load (contents : Option (List UInt8)) : (load contents).validated = load contents :=
  validated_eq_self (usable_validated _)

/-- Settings are validated as they should be, also those of a file, but nothing is done about times
that are too long. -/
theorem validated_limits (s : Settings) (contents : Option (List UInt8)) :
    Limits s s.validated ∧ Limits (load contents) (load contents) := by
  have loaded := limits_validated (load contents)
  rw [validated_load] at loaded
  exact ⟨limits_validated s, loaded⟩

/-- A settings file that asks for a slow frame of `10 ^ 20` seconds. -/
def ageFile : List UInt8 := Text.encode "\x7b\"slow_frame_seconds\": 1e20\x7d".toList

/-- The file is read, and what is loaded has been validated, but there is no such time. -/
theorem ageFile_unbounded : (load (some ageFile)).slowFrame? = none ∧
    (load (some ageFile)).validated.slowFrame? = none ∧
      (load (some ageFile)).cooldown? = some 3000000000 := by
  have text : Text.decode? ageFile = some "\x7b\"slow_frame_seconds\": 1e20\x7d" :=
    Text.decode?_encode _
  rw [load, Option.bind_some, text]
  decide +kernel

/-! ## Files -/

open Json (Nulls Distinct IsPlain ReadsBack reread)
open Json.Field (read_word read_flag read_single read_single_of_not_isFinite isPlain_word)

theorem nulls_numbers : Nulls numbers := ⟨rfl, rfl, rfl⟩

theorem distinct_fields : Distinct fields := ⟨by decide, by decide⟩

theorem isPlain_write (s : Settings) : ∀ f ∈ fields, IsPlain (f.write s) := by
  simp only [fields, List.forall_mem_cons]
  exact ⟨isPlain_word _ s _ _, trivial, isPlain_word _ s _ _, trivial, trivial, trivial, trivial,
    isPlain_word _ s _ _, trivial, trivial, trivial, fun _ h => nomatch h⟩

/-- Settings are loaded from the text of a file. -/
theorem load_encode (text : String) :
    load (some (Text.encode text.toList)) = ((parse? text).getD {}).validated := by
  rw [load, Option.bind_some, Text.decode?_encode, String.ofList_toList, Option.bind_some]

/-- What becomes of a field that is written and read. -/
theorem load_save_eq (s : Settings) : load (some (Text.encode (save s).toList)) =
    ((fields.foldlM (fun s' (f : Json.Field Settings) => f.read (reread numbers (f.write s)) s')
      {}).getD {}).validated := by
  have read : parse? (save s) =
      fields.foldlM (fun s' f => f.read (reread numbers (f.write s)) s') {} :=
    Json.readRecord_writeRecord nulls_numbers distinct_fields (List.cons_ne_nil _ _) s
      (isPlain_write s) {}
  rw [load_encode, read]

/-- Every field is read back if every number is. -/
theorem foldlM_fields (hexposure : ReadsBack numbers s.exposure)
    (hslow : ReadsBack numbers s.slowFrameSeconds)
    (hcooldown : ReadsBack numbers s.cooldownSeconds) :
    fields.foldlM (fun s' (f : Json.Field Settings) => f.read (reread numbers (f.write s)) s') {} =
      some s := by
  unfold fields
  simp only [List.foldlM_cons, List.foldlM_nil, read_word, read_flag,
    Tonemapping.named.read_choiceField, SamplingMode.named.read_choiceField,
    OutputChannel.named.read_choiceField, read_single _ s _ _ _ hexposure,
    read_single _ s _ _ _ hslow, read_single _ s _ _ _ hcooldown, Option.bind_eq_bind,
    Option.bind_some]
  rfl

/-- One number that is not finite is enough for nothing to be read. -/
theorem foldlM_fields_eq_none (h : ¬ (s.exposure.isFinite = true ∧
      s.slowFrameSeconds.isFinite = true ∧ s.cooldownSeconds.isFinite = true)) :
    fields.foldlM (fun s' (f : Json.Field Settings) => f.read (reread numbers (f.write s)) s') {} =
      none := by
  rw [not_and_or, not_and_or, Bool.not_eq_true, Bool.not_eq_true, Bool.not_eq_true] at h
  have unread (name : Json.FieldName) (get : Settings → Float32)
      (set : Float32 → Settings → Settings) (hmem : .single name get set ∈ fields)
      (hx : (get s).isFinite = false) : fields.foldlM
        (fun s' (f : Json.Field Settings) => f.read (reread numbers (f.write s)) s') {} = none :=
    Json.foldlM_eq_none hmem
      (fun s' => read_single_of_not_isFinite name s get set s' nulls_numbers hx) {}
  rcases h with h | h | h
  · exact unread _ _ _ (List.mem_of_getElem? (rfl : fields[3]? = some _)) h
  · exact unread _ _ _ (List.mem_of_getElem? (rfl : fields[9]? = some _)) h
  · exact unread _ _ _ (List.mem_of_getElem? (rfl : fields[10]? = some _)) h

/-- The standard settings are usable. -/
theorem validated_standard : ({} : Settings).validated = {} :=
  validated_eq_self ⟨by decide, by decide, exposes_one⟩

/-- Settings are read back from the file that they are saved to, and validated, if all numbers are
finite; otherwise all of them are lost. -/
theorem load_save (s : Settings) (hback : ∀ x ∈ [s.exposure, s.slowFrameSeconds, s.cooldownSeconds],
      x.isFinite = true → ReadsBack numbers x) :
    load (some (Text.encode (save s).toList)) =
      if s.exposure.isFinite ∧ s.slowFrameSeconds.isFinite ∧ s.cooldownSeconds.isFinite
      then s.validated else {} := by
  rw [load_save_eq]
  split
  next h =>
    rw [foldlM_fields (hback _ (by simp) h.1) (hback _ (by simp) h.2.1) (hback _ (by simp) h.2.2)]
    rfl
  next h =>
    rw [foldlM_fields_eq_none h]
    exact validated_standard

theorem load_save_deep :
    load (some (Text.encode (save { maxDepth := 100, exposure := 2.5 }).toList)) =
      { maxDepth := 64, exposure := 2.5 } := by
  have back : ∀ x ∈ [(2.5 : Float32), 1, 3], ReadsBack numbers x := by
    unfold ReadsBack
    decide +kernel
  refine (load_save { maxDepth := 100, exposure := 2.5 } fun x hx _ => back x hx).trans ?_
  rw [if_pos (by decide +kernel)]
  rfl

/-- A settings file that asks for a slow frame of `10 ^ 39` seconds, which is no finite number. -/
def patientFile : List UInt8 :=
  Text.encode "\x7b\"slow_frame_seconds\": 1e39, \"max_depth\": 3\x7d".toList

/-- What is loaded of it keeps its depth when it is validated, but not when it is saved and
loaded. -/
theorem patientFile_lost : (load (some patientFile)).validated.maxDepth = 3 ∧
    (load (some (Text.encode (save (load (some patientFile))).toList))).maxDepth = 8 := by
  have loaded : (load (some patientFile)).validated.maxDepth = 3 ∧
      (load (some patientFile)).slowFrameSeconds.isFinite = false := by
    rw [patientFile, load_encode]
    decide +kernel
  refine ⟨loaded.1, ?_⟩
  rw [load_save_eq, foldlM_fields_eq_none fun finite => by simp [loaded.2] at finite]
  rfl

end Settings

end Candela
