import Candela.Proofs.Shader.Literals
import Candela.Proofs.Shader.Ramp

/-!
# The order of written ramps

A kernel that evaluates a color ramp looks for the stops around a position, so the positions that
are written for it should be in order. The stops are put in order before they are written, and then
zero is written for a position that is not finite. This zero has to fit in (`Fits`): none of the
kept stops may have a negative position if one of them is at minus infinity, and none a positive one
if one of them is at another position that is not finite. The positions that are read back are in
order exactly if it does (`StoredRamp.inOrder_iff`).
-/

namespace Candela.Shader

open Candela.Decimal (isNumeric)
open Candela.Single (contentOf)
open Candela.Graph.Parameters (RampElement)

variable {x y : Float32} {elements : List RampElement} {entries : List String}

/-! ## Positions of stops -/

theorem isNaN_of_isFinite (hx : x.isFinite = true) : x.isNaN = false := by
  obtain ⟨negative, m, e, hcontent⟩ := Single.isFinite_iff.1 hx
  rw [Bool.eq_false_iff, Ne, Single.isNaN_iff]
  intro hnan
  rw [Single.ofSingle_eq, hnan] at hcontent
  cases hcontent

/-- What is finite is between the infinities. -/
theorem orderKey_bounds (hx : x.isFinite = true) :
    -1 - (Binary.single.infinityBits : ℤ) < orderKey x ∧
      orderKey x < Binary.single.infinityBits := by
  obtain ⟨negative, m, e, hcontent⟩ := Single.isFinite_iff.1 hx
  have placed := (Single.toBits_of_finite hcontent).2.pattern_lt
  rw [orderKey_eq, hcontent, contentKey]
  split <;> omega

/-- What is not finite is before everything finite if it is negative, and otherwise behind it. -/
theorem orderKey_of_not_isFinite (hx : x.isFinite = false) :
    x < 0 ∧ orderKey x = -1 - (Binary.single.infinityBits : ℤ) ∨
      ¬x < 0 ∧ (Binary.single.infinityBits : ℤ) ≤ orderKey x := by
  have finite : x.toModel.unpack.isFinite = false := hx
  have sign := Single.not_lt_zero_iff (x := x)
  rw [orderKey_eq, Single.ofSingle_eq]
  cases hunpack : x.toModel.unpack with
  | infinity s =>
    rw [hunpack] at sign
    cases s with
    | negative => exact .inl ⟨not_not.1 fun hnot => (nomatch sign.1 hnot), rfl⟩
    | positive => exact .inr ⟨sign.2 .infinity, le_rfl⟩
  | notANumber =>
    rw [hunpack] at sign
    exact .inr ⟨sign.2 .notANumber, by simp only [contentKey, contentOf]; omega⟩
  | zero | finite =>
    rw [hunpack] at finite
    cases finite

namespace TotalLe

theorem le_of_isFinite (h : TotalLe x y) (hx : x.isFinite = true) (hy : y.isFinite = true) :
    x ≤ y := by
  cases h with
  | refl => exact Single.le_self (isNaN_of_isFinite hx)
  | less h => exact Single.le_of_lt h
  | zeros => decide
  | last =>
    have nan := isNaN_of_isFinite hy
    simp [Float32.isNaN_eq_decide_eq_nan] at nan

/-- Only minus infinity is before what is finite. -/
theorem neg_of_isFinite (h : TotalLe x y) (hx : x.isFinite = false) (hy : y.isFinite = true) :
    x < 0 := by
  have le := orderKey_le_iff.2 h
  have bounds := orderKey_bounds hy
  rcases orderKey_of_not_isFinite hx with ⟨hneg, -⟩ | ⟨-, behind⟩
  · exact hneg
  · omega

/-- Minus infinity is not behind what is finite. -/
theorem not_neg_of_isFinite (h : TotalLe x y) (hx : x.isFinite = true) (hy : y.isFinite = false) :
    ¬y < 0 := by
  have le := orderKey_le_iff.2 h
  have bounds := orderKey_bounds hx
  rcases orderKey_of_not_isFinite hy with ⟨-, before⟩ | ⟨hnonneg, -⟩
  · omega
  · exact hnonneg

end TotalLe

/-! ## Zero in the place of a position -/

/-- Zero in the place of a number that is not finite is on its side of a finite number. -/
structure Fits (x y : Float32) : Prop where
  /-- In the place of minus infinity it is not behind it. -/
  below : x.isFinite = false → y.isFinite = true → x < 0 → ¬y < 0
  /-- In the place of anything else it is not before it. -/
  above : x.isFinite = false → y.isFinite = true → ¬x < 0 → ¬0 < y

namespace Fits

theorem of_isFinite (hx : x.isFinite = true) : Fits x y :=
  ⟨fun hx' => absurd hx (hx' ▸ Bool.false_ne_true), fun hx' => absurd hx (hx' ▸ Bool.false_ne_true)⟩

theorem of_not_isFinite (hy : y.isFinite = false) : Fits x y :=
  ⟨fun _ hy' => absurd hy' (hy ▸ Bool.false_ne_true),
    fun _ hy' => absurd hy' (hy ▸ Bool.false_ne_true)⟩

protected theorem refl (x : Float32) : Fits x x := by
  cases hx : x.isFinite with
  | true => exact .of_isFinite hx
  | false => exact .of_not_isFinite hx

end Fits

/-- Numbers in order are written in order if zero fits in. -/
theorem readable_le_iff (h : TotalLe x y) : readable x ≤ readable y ↔ Fits x y ∧ Fits y x := by
  have zero : (0 : Float32).isNaN = false := Single.denotes_zero.isNaN_eq_false
  cases hx : x.isFinite <;> cases hy : y.isFinite
  case false.false =>
    rw [readable_of_not_isFinite hx, readable_of_not_isFinite hy]
    exact iff_of_true (Single.le_self zero) ⟨.of_not_isFinite hy, .of_not_isFinite hx⟩
  case false.true =>
    have hneg := h.neg_of_isFinite hx hy
    rw [readable_of_not_isFinite hx, readable_of_isFinite hy,
      ← Single.not_lt_iff (isNaN_of_isFinite hy) zero]
    exact ⟨fun hle => ⟨⟨fun _ _ _ => hle, fun _ _ hnot => absurd hneg hnot⟩, .of_isFinite hy⟩,
      fun hfits => hfits.1.below hx hy hneg⟩
  case true.false =>
    have hnonneg := h.not_neg_of_isFinite hx hy
    rw [readable_of_isFinite hx, readable_of_not_isFinite hy,
      ← Single.not_lt_iff zero (isNaN_of_isFinite hx)]
    exact ⟨fun hle => ⟨.of_isFinite hx, fun _ _ hneg => absurd hneg hnonneg, fun _ _ _ => hle⟩,
      fun hfits => hfits.2.above hy hx hnonneg⟩
  case true.true =>
    rw [readable_of_isFinite hx, readable_of_isFinite hy]
    exact iff_of_true (h.le_of_isFinite hx hy) ⟨.of_isFinite hx, .of_isFinite hy⟩

/-- Zero fits in wherever a position that is not finite is written. -/
def Fitting (elements : List RampElement) : Prop :=
  ∀ a ∈ rampStops elements, ∀ b ∈ rampStops elements, Fits a.position b.position

/-- Stops in order are written in order exactly if zero fits in. -/
theorem pairwise_readable_iff (h : elements.Pairwise fun a b => TotalLe a.position b.position) :
    (elements.Pairwise fun a b => readable a.position ≤ readable b.position) ↔
      ∀ a ∈ elements, ∀ b ∈ elements, Fits a.position b.position := by
  constructor
  · intro written
    have fits : elements.Pairwise fun a b =>
        Fits a.position b.position ∧ Fits b.position a.position :=
      (h.and written).imp fun ⟨total, le⟩ => (readable_le_iff total).1 le
    have symmetric : Std.Symm fun a b : RampElement =>
        Fits a.position b.position ∧ Fits b.position a.position := ⟨fun _ _ => And.symm⟩
    exact fun a ha b hb => (fits.forall_of_forall (fun _ _ => ⟨.refl _, .refl _⟩) ha hb).1
  · intro fits
    exact h.imp_of_mem fun ha hb total => (readable_le_iff total).2 ⟨fits _ ha _ hb, fits _ hb _ ha⟩

/-- The kept stops are stops of the ramp. -/
theorem mem_of_mem_rampStops {e : RampElement} (h : e ∈ rampStops elements) : e ∈ elements :=
  (List.mergeSort_perm _ _).mem_iff.1 (List.mem_of_mem_take h)

/-! ## Reading positions back -/

/-- The position that is read from the text of a stop: its first argument, as a number. -/
def readPosition? (entry : String) : Option Float32 :=
  Text.single? ((entry.toList.drop "RampElement(".length).takeWhile (· ≠ ','))

/-- The positions that are read from some entries are in order. -/
def InOrder (entries : List String) : Prop :=
  ∃ positions : List Float32,
    entries.map readPosition? = positions.map some ∧ positions.Pairwise (· ≤ ·)

/-- The position of a stop is read back, unless it is not finite. -/
theorem readPosition?_rampElementText (e : RampElement) :
    readPosition? (rampElementText (some e)) = some (readable e.position) := by
  have opening : "RampElement(".toList.length = "RampElement(".length := rfl
  have comma : ", ".toList = [',', ' '] := rfl
  have numeric : ∀ c ∈ (numberText e.position).toList, decide (c ≠ ',') = true := by
    intro c hc
    refine decide_eq_true ?_
    rintro rfl
    exact absurd (isNumeric_of_mem_numberText e.position _ hc) (by decide)
  have text : ((rampElementText (some e)).toList.drop "RampElement(".length).takeWhile (· ≠ ',') =
      (numberText e.position).toList := by
    simp only [rampElementText, String.toList_append, List.append_assoc, ← opening,
      List.drop_left, List.takeWhile_append_of_pos numeric, comma]
    simp
  rw [readPosition?, text, single?_numberText]

/-- The stops of a list are written in order. -/
theorem inOrder_map_iff : InOrder (elements.map fun e => rampElementText (some e)) ↔
    elements.Pairwise fun a b => readable a.position ≤ readable b.position := by
  have read : (elements.map fun e => rampElementText (some e)).map readPosition? =
      (elements.map fun e => readable e.position).map some := by
    simp only [List.map_map, Function.comp_def, readPosition?_rampElementText]
  rw [InOrder, read, ← List.pairwise_map]
  constructor
  · rintro ⟨positions, same, order⟩
    rwa [List.map_injective_iff.2 (Option.some_injective _) same]
  · exact fun order => ⟨_, rfl, order⟩

/-- A stored ramp is in order exactly if zero fits in. -/
theorem StoredRamp.inOrder_iff (h : StoredRamp elements entries) :
    InOrder (entries.take (min elements.length 32)) ↔ Fitting elements := by
  obtain ⟨sorted, hsorted, hentries⟩ := h.used
  obtain ⟨sorted', hsorted', hstops⟩ := exists_isStableSort_rampStops elements
  rw [hentries, inOrder_map_iff, Fitting, rampStops_eq_take hsorted' hstops,
    ← hsorted.unique hsorted']
  exact pairwise_readable_iff (hsorted.ordered.sublist (List.take_sublist _ _))

/-! ## Main result -/

namespace Library

/-- Whatever stops a ramp has, the code of every block of the ramp in a function that is added to a
library stores it, and the positions of the stops that are used are read back in order exactly if
zero fits in where a position that is not finite is written. -/
theorem add_orders_ramps (p : Graph.Parameters.ColorRamp) (requests : List Request)
    (title : String) (g : Graph) (role : Role) (i : Nat)
    (h : ((after requests).add title g role).1 = .ok i) :
    ∃ f : Function,
      ((after requests).add title g role).2.functions = (after requests).functions ++ [f] ∧
      ∀ b ∈ f.blocks, ∀ node, g.get? b.node = some node → node.kernel = .colorRamp p →
        ∃ entries, b.StoresRamp p.elements entries ∧
          (InOrder (entries.take (min p.elements.length 32)) ↔ Fitting p.elements) := by
  obtain ⟨f, naming, hfunctions, -, hblocks⟩ := exists_codeOf_of_add h
  refine ⟨f, hfunctions, fun b hb node hget hkernel => ?_⟩
  obtain ⟨node', s, slot, hcode⟩ := hblocks b hb
  cases hget.symm.trans hcode.get
  have stores := hcode.storesRamp hkernel
  exact ⟨_, stores, stores.stored.inOrder_iff⟩

/-- A material that shows a ramp. -/
def gradient (p : Graph.Parameters.ColorRamp) : Graph where
  nodes := .ofList
    [("Output", ⟨.outputMaterial, .ofList [fed "Surface" "Ramp" "Color"]⟩),
     ("Ramp", ⟨.colorRamp p, .ofList []⟩)]

theorem get?_gradient (p : Graph.Parameters.ColorRamp) :
    (gradient p).get? "Ramp" = some ⟨.colorRamp p, .ofList []⟩ := by
  simp only [Graph.get?, gradient, Keyed.ofList, List.foldl_cons, List.foldl_nil,
    Keyed.get?_insert]
  rfl

/-- A ramp whose stops are not in order. -/
def dusk : Graph.Parameters.ColorRamp where
  elements := [⟨1, ⟨1, 0, 0, 1⟩⟩, ⟨0.25, ⟨0, 0, 1, 1⟩⟩]

/-- All of its positions are finite. -/
theorem fitting_dusk : Fitting dusk.elements := by
  have finite : ∀ e ∈ dusk.elements, e.position.isFinite = true := by decide
  exact fun a ha _ _ => .of_isFinite (finite a (mem_of_mem_rampStops ha))

/-- They are written in order. -/
theorem orders_dusk : ((after []).add "Dusk" (gradient dusk) .surface).1 = .ok 0 ∧
    ∃ f b entries, ((after []).add "Dusk" (gradient dusk) .surface).2.functions = [f] ∧
      b ∈ f.blocks ∧ b.StoresRamp dusk.elements entries ∧ InOrder (entries.take 2) := by
  have hadded : ((after []).add "Dusk" (gradient dusk) .surface).1 = .ok 0 := by decide
  have hnodes : ((after []).add "Dusk" (gradient dusk) .surface).2.functions.map Function.nodes =
      [["Ramp", "Output"]] := by decide
  obtain ⟨f, hfunctions, hblocks⟩ :=
    add_orders_ramps dusk [] "Dusk" (gradient dusk) .surface 0 hadded
  obtain ⟨b, hb, hname⟩ := f.exists_block (hfunctions ▸ hnodes) List.mem_cons_self
  obtain ⟨entries, stores, order⟩ := hblocks b hb _ (hname ▸ get?_gradient dusk) rfl
  exact ⟨hadded, f, b, entries, hfunctions, hb, stores, order.2 fitting_dusk⟩

/-- A ramp with a stop at an infinite position. -/
def glare : Graph.Parameters.ColorRamp where
  elements := [⟨0.5, ⟨1, 0, 0, 1⟩⟩, ⟨Float32.ofBits 0x7F800000, ⟨0, 0, 1, 1⟩⟩]

/-- Its stops are in order as they are. -/
theorem rampStops_glare : rampStops glare.elements = glare.elements := by
  rw [rampStops, List.mergeSort_of_pairwise (by decide)]
  rfl

/-- Zero does not fit in for the infinite position. -/
theorem not_fitting_glare : ¬Fitting glare.elements := by
  intro fitting
  rw [Fitting, rampStops_glare] at fitting
  have fits := fitting glare.elements[1] (List.getElem_mem _) glare.elements[0] (List.getElem_mem _)
  exact fits.above (by decide) (by decide) (by decide) (by decide)

/-- A stop as it is given in a document. -/
def stopAt (position : Float) (color : List ℤ) : Json :=
  .object [("position", .number (.real position)),
    ("color", .array (color.map fun c => .number (.integer c)))]

/-- It is what is read where a position is out of range, and it is not written in order. -/
theorem glare_unordered :
    Json.readRecord Graph.Parameters.ColorRamp.fields {}
        (.object [("elements", .array [stopAt 0.5 [1, 0, 0, 1], stopAt 1e39 [0, 0, 1, 1]])]) =
      some glare ∧
    ((after []).add "Glare" (gradient glare) .surface).1 = .ok 0 ∧
    ∃ f b entries, ((after []).add "Glare" (gradient glare) .surface).2.functions = [f] ∧
      b ∈ f.blocks ∧ b.StoresRamp glare.elements entries ∧
      entries.take 2 = ["RampElement(0.5, vec4f(1.0, 0.0, 0.0, 1.0))",
        "RampElement(0.0, vec4f(0.0, 0.0, 1.0, 1.0))"] ∧ ¬InOrder (entries.take 2) := by
  have hadded : ((after []).add "Glare" (gradient glare) .surface).1 = .ok 0 := by decide
  have hnodes : ((after []).add "Glare" (gradient glare) .surface).2.functions.map Function.nodes =
      [["Ramp", "Output"]] := by decide
  obtain ⟨f, naming, hfunctions, -, hblocks⟩ := exists_codeOf_of_add hadded
  obtain ⟨b, hb, hname⟩ := f.exists_block (hfunctions ▸ hnodes) List.mem_cons_self
  obtain ⟨node, s, slot, hcode⟩ := hblocks b hb
  cases (hname ▸ get?_gradient glare).symm.trans hcode.get
  have stores := hcode.storesRamp rfl
  refine ⟨by decide +kernel, hadded, f, b, _, hfunctions, hb, stores, ?_, ?_⟩
  · rw [rampEntries_eq, rampStops_glare]
    decide
  · exact fun order => not_fitting_glare (stores.stored.inOrder_iff.1 order)

end Library

end Candela.Shader
