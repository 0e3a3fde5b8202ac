import Mathlib
import Candela.CommandLine
import Candela.Frame.Image
import Candela.Frame.Sizes
import Candela.Proofs.Result
import Candela.Proofs.Text.Numeral

/-!
# Sizes that a command line asks for

A command line can ask for every width and every height that is a positive word
(`CommandLine.exists_size?_eq_some_iff`). The device counts pixels and counters in words, so not all
of these have a frame: the pixels have to fit, and so do the counters (`Sizes.footprint_eq_ite`).
Where both do, every number of bytes is the exact one, it is far below what 64 bits hold, and the
accumulated colors are as many as an image of that width and height is made from
(`Footprint.Exact`). Where one does not, there is an error and no number
(`Sizes.exact_or_overflow`).
-/

namespace Candela

/-! ## What is accepted -/

namespace Text

theorem lt_of_count?_eq_some {bound n : Nat} {cs : List Char} (h : count? bound cs = some n) :
    n < bound := by
  unfold count? at h
  split at h
  · split at h
    · cases h
      assumption
    · cases h
  · cases h

end Text

namespace CommandLine

variable {value : String} {w h n : Nat}

theorem positive?_eq_some {cs : List Char} (hn : positive? cs = some n) :
    0 < n ∧ n < wordValues := by
  obtain ⟨m, hcount, hpos⟩ := Option.bind_eq_some_iff.1 hn
  split at hpos
  · cases hpos
    exact ⟨‹_›, Text.lt_of_count?_eq_some hcount⟩
  · cases hpos

/-- The width and the height of an accepted size are positive words. -/
theorem size?_eq_some (hsize : size? value = some (w, h)) :
    (0 < w ∧ w < wordValues) ∧ 0 < h ∧ h < wordValues := by
  simp only [size?] at hsize
  split at hsize
  · cases hsize
  · obtain ⟨a, ha, hsize⟩ := Option.bind_eq_some_iff.1 hsize
    obtain ⟨b, hb, hsize⟩ := Option.bind_eq_some_iff.1 hsize
    cases hsize
    exact ⟨positive?_eq_some ha, positive?_eq_some hb⟩

theorem positive?_toString (hpos : 0 < n) (hn : n < wordValues) :
    positive? (toString n).toList = some n := by
  have bound : n < 2 ^ 32 := hn
  rw [positive?, Text.count?_toString bound]
  exact if_pos hpos

/-- No digit stands for the mark between width and height. -/
theorem not_isSizeMark_of_mem_toString {c : Char} (hc : c ∈ (toString n).toList) :
    (!isSizeMark c) = true := by
  rw [Nat.toString_eq_ofList_toDigits, String.toList_ofList] at hc
  have digit := Text.isDigit_of_mem_toDigits hc
  cases hmark : isSizeMark c with
  | false => rfl
  | true =>
    simp only [isSizeMark, Bool.or_eq_true, beq_iff_eq] at hmark
    rcases hmark with rfl | rfl <;> exact absurd digit (by decide)

/-- Two positive words with a mark between them are accepted. -/
theorem size?_toString (hw : 0 < w ∧ w < wordValues) (hh : 0 < h ∧ h < wordValues) :
    size? (toString w ++ "x" ++ toString h) = some (w, h) := by
  have text : (toString w ++ "x" ++ toString h).toList
      = (toString w).toList ++ 'x' :: (toString h).toList := by simp
  have digits : ∀ c ∈ (toString w).toList, (!isSizeMark c) = true :=
    fun c hc => not_isSizeMark_of_mem_toString hc
  have mark : (!isSizeMark 'x') = false := by decide
  rw [size?, text, List.dropWhile_append_of_pos digits, List.takeWhile_append_of_pos digits]
  simp only [List.dropWhile_cons, List.takeWhile_cons, mark, Bool.false_eq_true, if_false,
    List.append_nil, positive?_toString hw.1 hw.2, positive?_toString hh.1 hh.2]
  rfl

/-- What is accepted is every pair of positive words, and nothing else. -/
theorem exists_size?_eq_some_iff :
    (∃ value, size? value = some (w, h)) ↔
      (0 < w ∧ w < wordValues) ∧ 0 < h ∧ h < wordValues :=
  ⟨fun ⟨_, hsize⟩ => size?_eq_some hsize, fun ⟨hw, hh⟩ => ⟨_, size?_toString hw hh⟩⟩

end CommandLine

/-! ## What a frame needs -/

namespace Frame

/-- As many accumulated colors as an image has pixels make one. -/
theorem Image.exists_ofAccumulation {width height : Nat} {accumulation : List (Vec4 Float32)}
    (enough : width * height ≤ accumulation.length) (samples : Nat) :
    ∃ image, ofAccumulation width height accumulation samples = .ok image ∧
      image.width = width ∧ image.height = height ∧ image.pixels.length = width * height := by
  refine ⟨_, if_neg (Nat.not_lt.2 enough), rfl, rfl, ?_⟩
  simp [enough]

namespace Footprint

/-- What a frame of a width, a height and a depth needs, without rounding and without wrapping. -/
structure Exact (f : Footprint) (width height depth : Nat) : Prop where
  pixels : f.pixels = width * height
  rayCapacity : f.rayCapacity = width * height
  rays : f.rays = 2 * (width * height) * rayBytes
  shadowRays : f.shadowRays = width * height * shadowRayBytes
  hits : f.hits = width * height * hitBytes
  counters : f.counters.bytes = (3 * depth + 1) * 4
  grids : f.grids = 2 * depth * Grid.bytes
  accumulation : f.accumulation = width * height * colorBytes
  total : f.total = width * height *
    (2 * rayBytes + shadowRayBytes + hitBytes + colorBytes + pixelBytes) +
      (3 * depth + 1) * 4 + 2 * depth * Grid.bytes
  total_lt : f.total < 2 ^ 64
  /-- The accumulated colors are enough for an image. -/
  image : ∀ (colors : List (Vec4 Float32)) (samples : Nat),
    colors.length = f.accumulation / colorBytes →
      ∃ image, Image.ofAccumulation width height colors samples = .ok image ∧
        image.pixels.length = width * height

/-- Numbers that are words are small enough for all bytes to be exact. -/
theorem exact_of_lt {width height depth : Nat} (hpixels : width * height < wordValues)
    (hcounters : 3 * depth + 1 < wordValues) :
    (Footprint.mk (width * height) ⟨depth⟩).Exact width height depth := by
  have total : (Footprint.mk (width * height) ⟨depth⟩).total = width * height *
      (2 * rayBytes + shadowRayBytes + hitBytes + colorBytes + pixelBytes) +
        (3 * depth + 1) * 4 + 2 * depth * Grid.bytes := by
    simp only [Footprint.total, Footprint.rays, Footprint.shadowRays, Footprint.hits,
      Footprint.grids, Footprint.accumulation, Footprint.rayCapacity, Counters.bytes,
      Counters.length]
    ring
  refine ⟨rfl, rfl, rfl, rfl, rfl, rfl, rfl, rfl, total, ?_, fun colors samples hlength => ?_⟩
  · rw [total]
    simp only [wordValues, rayBytes, shadowRayBytes, hitBytes, colorBytes, pixelBytes,
      Grid.bytes] at *
    omega
  · have enough : colors.length = width * height :=
      hlength.trans (Nat.mul_div_cancel _ (by decide))
    obtain ⟨image, himage, -, -, hpixels⟩ := Image.exists_ofAccumulation enough.ge samples
    exact ⟨image, himage, hpixels⟩

end Footprint

namespace Sizes

variable {w h : Nat} {value : String}

/-- A frame has a footprint if pixels and counters are words, and fails otherwise. -/
theorem footprint_eq_ite (s : Sizes) :
    s.footprint = if s.width * s.height < wordValues ∧ 3 * s.maxDepth + 1 < wordValues then
      .ok ⟨s.width * s.height, ⟨s.maxDepth⟩⟩ else .error .overflow := by
  have counters : Counters.ofDepth s.maxDepth
      = if 3 * s.maxDepth + 1 < wordValues then .ok ⟨s.maxDepth⟩ else .error .overflow := by
    rw [Counters.ofDepth, inWord, Counters.length]
    split <;> rfl
  rw [footprint, counters, pixels, inWord]
  by_cases hp : s.width * s.height < wordValues <;>
    by_cases hc : 3 * s.maxDepth + 1 < wordValues <;>
    simp only [hp, hc, if_true, if_false, and_true, and_false, and_self] <;> rfl

/-- Sizes that are accepted are those of the frame. -/
theorem ofRequest_of_size? (maxDepth : Nat) (hsize : CommandLine.size? value = some (w, h)) :
    ofRequest w h maxDepth = ⟨w, h, max maxDepth 1⟩ := by
  obtain ⟨⟨hw, -⟩, hh, -⟩ := CommandLine.size?_eq_some hsize
  rw [ofRequest, Nat.max_eq_left hw, Nat.max_eq_left hh]

/-- Whatever size a command line asks for, and whatever the depth: the number of pixels is the
product or there is none, all bytes are exact or there are none, and there are none only where the
pixels or the counters are more than a word counts. -/
theorem exact_or_overflow (maxDepth : Nat) (hsize : CommandLine.size? value = some (w, h)) :
    let s := ofRequest w h maxDepth
    (s.pixels = if w * h < wordValues then .ok (w * h) else .error .overflow) ∧
      if w * h < wordValues ∧ 3 * max maxDepth 1 + 1 < wordValues then
        ∃ f, s.footprint = .ok f ∧ f.Exact w h (max maxDepth 1)
      else s.footprint = .error .overflow := by
  intro s
  have sizes : s = ⟨w, h, max maxDepth 1⟩ := ofRequest_of_size? maxDepth hsize
  refine ⟨by rw [sizes]; rfl, ?_⟩
  rw [footprint_eq_ite, sizes]
  split
  next fits => exact ⟨_, rfl, Footprint.exact_of_lt fits.1 fits.2⟩
  next => rfl

/-- The widest picture of common screens, and a depth that counters have room for. -/
theorem exact_or_overflow_screen :
    CommandLine.size? "3840x2160" = some (3840, 2160) ∧
      ∃ f, (ofRequest 3840 2160 8).footprint = .ok f ∧ f.Exact 3840 2160 8 := by
  have hsize : CommandLine.size? "3840x2160" = some (3840, 2160) := by decide
  have spec := (exact_or_overflow 8 hsize).2
  rw [if_pos (by decide)] at spec
  exact ⟨hsize, spec⟩

/-- A square that a command line can ask for has more pixels than a word counts. -/
theorem square_overflow :
    CommandLine.size? "65536x65536" = some (65536, 65536) ∧
      (ofRequest 65536 65536 1).pixels = .error .overflow ∧
        (ofRequest 65536 65536 1).footprint = .error .overflow :=
  ⟨by decide, rfl, rfl⟩

end Sizes

end Frame

end Candela
