import Candela.Proofs.Shader.Arguments
import Candela.Proofs.Shader.Library
import Candela.Proofs.Shader.Scope

/-!
# Slots stay with their textures

Slots are written into code long before any texture is loaded, and some are given back when a graph
is refused. `Block.Bound` says that the slots in the code of a node are those of the texture that
the node asks for. It holds when the block is written (`CodeOf.bound`) and stays so when sources are
added behind those that have slots (`Block.Bound.mono`), which is all that any later request does to
the registry (`registry_after_extends`). What is loaded, declared and bound for a slot is then that
of the node's texture (`build_textures_closed`).
-/

namespace Candela.Texture

/-- What becomes of a source: its texels, if there are any and neither side is too long, or the
placeholder. -/
inductive Loaded (load : String → Option Data) (maxDimension : Nat) : Source → Data → Prop where
  /-- An image has been loaded. -/
  | file {path : String} {data : Data} (hload : load path = some data)
      (hwidth : data.width ≤ maxDimension) (hheight : data.height ≤ maxDimension) :
      Loaded load maxDimension (.file path) data
  /-- An image cannot be loaded. -/
  | missing {path : String} (hload : load path = none) :
      Loaded load maxDimension (.file path) .placeholder
  /-- An image is too large. -/
  | large {path : String} {data : Data} (hload : load path = some data)
      (hsize : maxDimension < data.width ∨ maxDimension < data.height) :
      Loaded load maxDimension (.file path) .placeholder
  /-- A sky has been computed. -/
  | sky {model : Sky.Model} (hwidth : model.image.width ≤ maxDimension)
      (hheight : model.image.height ≤ maxDimension) :
      Loaded load maxDimension (.sky model) model.image
  /-- A sky is too large. -/
  | largeSky {model : Sky.Model}
      (hsize : maxDimension < model.image.width ∨ maxDimension < model.image.height) :
      Loaded load maxDimension (.sky model) .placeholder

/-- Every source is loaded or replaced. -/
theorem Registry.loaded_loadSource (load : String → Option Data) (maxDimension : Nat)
    (source : Source) : Loaded load maxDimension source (loadSource load maxDimension source) := by
  cases source with
  | file path =>
    cases hload : load path with
    | none => simpa [loadSource, hload] using Loaded.missing hload
    | some data =>
      by_cases hsize : maxDimension < data.width ∨ maxDimension < data.height
      · simpa [loadSource, hload, hsize] using Loaded.large hload hsize
      · obtain ⟨hwidth, hheight⟩ := not_or.1 hsize
        simpa [loadSource, hload, hwidth, hheight] using
          Loaded.file hload (Nat.le_of_not_lt hwidth) (Nat.le_of_not_lt hheight)
  | sky model =>
    by_cases hsize : maxDimension < model.image.width ∨ maxDimension < model.image.height
    · simpa [loadSource, hsize] using Loaded.largeSky hsize
    · obtain ⟨hwidth, hheight⟩ := not_or.1 hsize
      simpa [loadSource, hwidth, hheight] using
        Loaded.sky (Nat.le_of_not_lt hwidth) (Nat.le_of_not_lt hheight)

end Candela.Texture

namespace Candela.Shader

open Candela.Graph (Node)

variable {g : Graph} {b : Block} {r r' : Texture.Registry}

/-! ## Code -/

/-- The slots in the code of a node are those of the texture that the node asks for. -/
structure Block.Bound (b : Block) (g : Graph) (r : Texture.Registry) : Prop where
  /-- A slot is named for the texture of the node only, and has a source with its identity. -/
  source : ∀ a ∈ b.invocation.arguments, ∀ slot, a.slot? = some slot →
    ∃ node wanted kept, g.get? b.node = some node ∧ textureOf? node.kernel = some wanted ∧
      r.sources[slot]? = some kept ∧ kept.key = wanted.key
  /-- The slot of the texture of the node is named. -/
  named : ∀ node wanted, g.get? b.node = some node → textureOf? node.kernel = some wanted →
    ∃ slot, .slot slot ∈ b.invocation.arguments
  /-- No constant is named that could be that of another slot. -/
  closed : ∀ constant, .constant constant ∉ b.invocation.arguments

/-- A block that has been written names the slot of its node's texture. -/
theorem CodeOf.bound {q : Progress} {node : Node} {signature : Signature} {slot : Nat}
    (h : CodeOf g q b node signature slot) (hr : q.registry.WellFormed) :
    b.Bound g q.registry where
  source a ha n hn := by
    rw [h.invocation, arguments_nodeInvocation] at ha
    obtain ⟨rfl, htexture⟩ := slot_of_mem_arguments ha hn
    obtain ⟨wanted, hwanted⟩ := Option.isSome_iff_exists.1 htexture
    obtain ⟨kept, hkept, hkey⟩ := hr.exists_source (h.texture wanted hwanted)
    exact ⟨node, wanted, kept, h.get, hwanted, hkept, hkey⟩
  named node' wanted hget hwanted := by
    cases h.get.symm.trans hget
    refine ⟨slot, ?_⟩
    rw [h.invocation, arguments_nodeInvocation]
    exact slot_mem_arguments (hwanted ▸ rfl)
  closed constant := by
    rw [h.invocation, arguments_nodeInvocation]
    exact constant_notMem_arguments node.kernel constant

/-- Sources that are added leave the slots alone. -/
theorem Block.Bound.mono (h : b.Bound g r) (hext : r.Extends r') : b.Bound g r' where
  source a ha slot hslot := by
    obtain ⟨node, wanted, kept, hget, hwanted, hkept, hkey⟩ := h.source a ha slot hslot
    exact ⟨node, wanted, kept, hget, hwanted, hext.getElem? hkept, hkey⟩
  named := h.named
  closed := h.closed

/-! ## Requests -/

namespace Library

variable {l : Library} {title : String} {role : Role}

/-- Adding a graph adds sources behind those that have slots. -/
theorem Addition.extends {a : Except Error Nat × Library} (h : l.Addition title g role a) :
    l.registry.Extends a.2.registry := by
  cases h with
  | empty => exact .refl _
  | compiled _ hvisited => exact hvisited.sound.added
  | rejected => exact .refl _

/-- Requests are answered one after another. -/
theorem after_append (requests requests' : List Request) :
    after (requests ++ requests') = ((after requests).addAll requests').2 := by
  rw [after, after, addAll_append]

/-- Later requests leave the slots alone. -/
theorem registry_after_extends (before later : List Request) :
    (after before).registry.Extends (after (before ++ later)).registry := by
  rw [after_append]
  refine (addAll_induction (P := fun l => l.registry.WellFormed ∧
    (after before).registry.Extends l.registry) ⟨after_wellFormed before, .refl _⟩ ?_ later).2
  rintro l title g role ⟨hwf, hext⟩
  have hadd := add_addition hwf title g role
  exact ⟨hadd.wellFormed hwf, hext.trans hadd.extends⟩

/-- Every function has been added for one of the requests. -/
theorem exists_request (requests : List Request) {f : Function}
    (hf : f ∈ (after requests).functions) :
    ∃ before r later, requests = before ++ r :: later ∧
      (after (before ++ [r])).functions = (after before).functions ++ [f] := by
  induction requests using List.reverseRecOn with
  | nil => cases hf
  | append_singleton before r ih =>
    have hadd := add_addition (after_wellFormed before) r.title r.graph r.role
    have hafter : after (before ++ [r]) = ((after before).add r.title r.graph r.role).2 :=
      after_append before [r]
    have hold (hmem : f ∈ (after before).functions) : ∃ before' r' later,
        before ++ [r] = before' ++ r' :: later ∧
          (after (before' ++ [r'])).functions = (after before').functions ++ [f] := by
      obtain ⟨before', r', later, rfl, hfunctions⟩ := ih hmem
      exact ⟨before', r', later ++ [r], by simp, hfunctions⟩
    cases hout : (after before).add r.title r.graph r.role with
    | mk answer l' =>
      rw [hout] at hadd hafter
      cases answer with
      | error e =>
        rw [hafter, hadd.of_error] at hf
        exact hold hf
      | ok i =>
        obtain ⟨-, registry, blocks, hl', -⟩ := hadd.of_ok
        have hfunctions : (after (before ++ [r])).functions = (after before).functions ++
            [⟨r.role, r.title, (after before).freshName r.title, blocks⟩] := by
          rw [hafter, hl']
          rfl
        rw [hfunctions] at hf
        rcases List.mem_append.1 hf with hmem | hmem
        · exact hold hmem
        · exact ⟨before, r, [], rfl, List.mem_singleton.1 hmem ▸ hfunctions⟩

/-- The blocks of a function name the slots that their textures have when it is added. -/
theorem bound_of_functions_eq {before : List Request} {r : Request} {f : Function}
    (h : (after (before ++ [r])).functions = (after before).functions ++ [f]) :
    f.role = r.role ∧ f.title = r.title ∧
      ∀ b ∈ f.blocks, b.Bound r.graph (after (before ++ [r])).registry := by
  have hadd := add_addition (after_wellFormed before) r.title r.graph r.role
  have hafter : after (before ++ [r]) = ((after before).add r.title r.graph r.role).2 :=
    after_append before [r]
  rw [hafter] at h ⊢
  cases hout : (after before).add r.title r.graph r.role with
  | mk answer l' =>
    rw [hout] at hadd h
    cases answer with
    | error e =>
      rw [hadd.of_error] at h
      simp at h
    | ok i =>
      obtain ⟨-, registry, blocks, rfl, hblocks⟩ := hadd.of_ok
      obtain rfl := List.singleton_inj.1 (List.append_cancel_left h)
      refine ⟨rfl, rfl, fun b hb => ?_⟩
      rcases hblocks with ⟨-, -, rfl⟩ | ⟨out, q, -, rfl, rfl, hvisited⟩
      · cases hb
      · obtain ⟨node, signature, slot, hcode⟩ := hvisited.sound.code b hb
        exact hcode.bound hvisited.sound.registry

end Library

/-! ## Header -/

variable {formats : List Texture.PixelFormat} {slot : Nat} {format : Texture.PixelFormat}

/-- What the texts of the textures are part of. -/
theorem occurs_textureHeader {part : String} (h : Occurs part (textureHeader formats))
    (stamp : String) : Occurs part (header stamp formats) := by
  unfold header
  exact .append_right (.append_right (.append_right (.append_right (h.append_left _) _) _) _) _

/-- The header declares the formats of all textures. -/
theorem occurs_formatConstant (h : formats[slot]? = some format) :
    Occurs (formatConstant slot format) (textureHeader formats) := by
  have hindexed : (format, slot) ∈ formats.zipIdx := List.mem_zipIdx_iff_getElem?.2 h
  unfold textureHeader
  refine .append_right (.append_right (.append_right (.append_right (.append_right (.append_right
    (.append_right (.append_right (.append_right (.append_right ?_ _) _) _) _) _) _) _) _) _) _
  exact (occurs_join (List.mem_map.2 ⟨(format, slot), hindexed, rfl⟩)).append_left _

/-- The header binds all textures. -/
theorem occurs_textureBinding (h : slot < formats.length) (hmax : formats.length ≤ Texture.maxSlots) :
    Occurs (textureBinding slot) (textureHeader formats) := by
  have hbound : slot < boundTextures formats.length := by
    unfold boundTextures
    omega
  have hmem : textureBinding slot ∈
      (List.range (boundTextures formats.length)).map textureBinding :=
    List.mem_map_of_mem (List.mem_range.2 hbound)
  unfold textureHeader
  refine .append_right (.append_right (.append_right (.append_right (.append_right (.append_right
    (.append_right ?_ _) _) _) _) _) _) _
  exact (occurs_join hmem).append_left _

/-! ## Main result -/

namespace Library

/-- After any requests, whichever of them were refused, there are at most sixteen textures, and the
slots in the code of every function are those of the textures that its graph asked for, both when
the function was added and at the end. Building hands to the compiler a source and comes to what the
compiler makes of it: in it are one texture for every slot, which is what became of the source that
has the slot, and a header that declares the format of this texture and binds it. -/
theorem build_textures_closed (requests : List Request) :
    (after requests).registry.size ≤ 16 ∧
    (∀ f ∈ (after requests).functions, ∃ before r later, requests = before ++ r :: later ∧
      (after (before ++ [r])).functions = (after before).functions ++ [f] ∧
      f.role = r.role ∧ f.title = r.title ∧
      ∀ b ∈ f.blocks, b.Bound r.graph (after (before ++ [r])).registry ∧
        b.Bound r.graph (after requests).registry) ∧
    ∀ (stamp : String) (load : String → Option Texture.Data) (maxDimension : Nat), ∃ built : Built,
      (∀ compile, (after requests).build stamp load maxDimension compile =
        (compile built.source).map fun _ => built) ∧
      Occurs (after requests).body built.source ∧
      built.textures.length = (after requests).registry.size ∧
      (∀ (slot : Nat) source, (after requests).registry.sources[slot]? = some source →
        ∃ data, built.textures[slot]? = some data ∧
          Texture.Loaded load maxDimension source data) ∧
      ∃ rest, built.source = header stamp (built.textures.map (·.format)) ++ rest ∧
        ∀ (slot : Nat) data, built.textures[slot]? = some data →
          Occurs (formatConstant slot data.format)
              (header stamp (built.textures.map (·.format))) ∧
            Occurs (textureBinding slot) (header stamp (built.textures.map (·.format))) := by
  have hwf := after_wellFormed requests
  refine ⟨hwf.size_le, fun f hf => ?_, fun stamp load maxDimension => ?_⟩
  · obtain ⟨before, r, later, rfl, hfunctions⟩ := exists_request requests hf
    obtain ⟨hrole, htitle, hbound⟩ := bound_of_functions_eq hfunctions
    refine ⟨before, r, later, rfl, hfunctions, hrole, htitle, fun b hb => ⟨hbound b hb, ?_⟩⟩
    have hext := registry_after_extends (before ++ [r]) later
    rw [List.append_assoc, List.singleton_append] at hext
    exact (hbound b hb).mono hext
  · let textures := (after requests).registry.loadAll load maxDimension
    have hlength : textures.length = (after requests).registry.size := List.length_map _
    refine ⟨⟨(after requests).source .standard stamp (textures.map (·.format)), textures,
      (after requests).table .surface, (after requests).table .light⟩, fun compile => ?_, ?_,
      hlength, fun slot source hsource => ?_, ?_⟩
    · unfold build
      dsimp only
      cases compile _ <;> rfl
    · unfold source
      refine .append_right (.append_right (.append_right (.append_right (.append_right ?_ _) _) _)
        _) _
      exact Occurs.append_left ⟨"", "", by simp⟩ _
    · refine ⟨Texture.Registry.loadSource load maxDimension source, ?_,
        Texture.Registry.loaded_loadSource load maxDimension source⟩
      simp [textures, Texture.Registry.loadAll, hsource]
    · obtain ⟨rest, hrest⟩ :=
        Scope.exists_source_eq (after requests) stamp (textures.map (·.format))
      refine ⟨Static.common ++ rest, by rw [hrest, String.append_assoc], fun slot data hdata => ?_⟩
      have hformat : (textures.map (·.format))[slot]? = some data.format := by
        rw [List.getElem?_map, hdata, Option.map_some]
      have hslot : slot < (textures.map (·.format)).length := (List.getElem?_eq_some_iff.1 hformat).1
      have hmax : (textures.map (·.format)).length ≤ Texture.maxSlots := by
        rw [List.length_map, hlength]
        exact hwf.size_le
      exact ⟨occurs_textureHeader (occurs_formatConstant hformat) stamp,
        occurs_textureHeader (occurs_textureBinding hslot hmax) stamp⟩

end Library

end Candela.Shader
