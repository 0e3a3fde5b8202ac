import Mathlib.Data.List.Nodup
import Candela.Shader.Compile
import Candela.Shader.Source

/-!
# Types of generated expressions

A `Scope` is what is declared where an expression stands: the structs and the functions of the
library, and the variables above it. `Scope.typeOf?` computes the type of an expression from these
declarations alone: from the types of fields, and from the types of parameters and results. What a
scope declares is what the text of a library declares (`Scope.occurs_struct`,
`Scope.occurs_helper`), under names that are not declared twice (`nodup_structs`).
-/

namespace Candela.Shader

/-- What is declared where an expression stands. -/
structure Scope where
  structs : List Struct
  helpers : List Helper
  /-- The variables above, and the names of the structs they hold. -/
  locals : List (String × String)

/-- The type of an array. -/
def arrayType (element : String) (length : Nat) : String :=
  "array<" ++ element ++ ", " ++ toString length ++ ">"

/-- Whether a field has an explicit type. -/
def FieldKind.isRaw : FieldKind → Bool
  | raw _ => true
  | _ => false

namespace Scope

/-- The struct of a name. -/
def struct? (s : Scope) (name : String) : Option Struct := s.structs.find? (·.name == name)

/-- The type of a field of a struct. -/
def fieldType? (s : Scope) (name field : String) : Option String :=
  (s.struct? name).bind (·.type? field)

/-- The type of a call: the arguments must have the types of the parameters. -/
def callType? (s : Scope) (name : String) (arguments : List String) : Option String :=
  (s.helpers.find? (·.name == name)).bind fun f =>
    if f.parameters.map (·.2) = arguments then some f.result else none

/-- The type of an expression, if it has one. A vector of four numbers is made of as many numbers or
of a vector of three and a number; a stop of a color ramp is made of values for its fields. -/
def typeOf? (s : Scope) : Expression → Option String
  | .constant _ => some "vec4f"
  | .zero => some "vec4f"
  | .context c =>
    if s.fieldType? Static.shadingContext.name c.name = some "vec3f" then some "vec4f" else none
  | .field identifier name => (s.locals.lookup identifier).bind (s.fieldType? · name)
  | .colorFromFloat e =>
    (s.typeOf? e).bind fun type => s.callType? Static.colorFromFloat.name [type]
  | .floatFromColor e =>
    (s.typeOf? e).bind fun type => s.callType? Static.floatFromColor.name [type]
  | .floatFromVector e =>
    (s.typeOf? e).bind fun type => s.callType? Static.floatFromVector.name [type]
  | .closureFromData e =>
    (s.typeOf? e).bind fun type => s.callType? Static.closureFromData.name [type]
  | .noClosure => s.callType? Static.closureNone.name []
  | .number _ => some "f32"
  | .numbers xs => some (arrayType "f32" xs.length)
  | .ramp stops =>
    if (s.struct? "RampElement").map (·.fields.map (·.2)) = some ["f32", "vec4f"] then
      some (arrayType "RampElement" stops.length)
    else none

/-- What a library declares, and the variables of some blocks. -/
def below (blocks : List Block) : Scope where
  structs := Static.structs ++ catalogue.map Signature.struct
  helpers := Static.conversions ++ Static.closures
  locals := blocks.map fun b => (b.identifier, b.invocation.signature.name)

end Scope

/-! ## What is declared -/

/-- A text is part of another. -/
def Occurs (part text : String) : Prop := ∃ before after, text = before ++ part ++ after

theorem Occurs.append_left {part text : String} (h : Occurs part text) (other : String) :
    Occurs part (other ++ text) := by
  obtain ⟨before, after, rfl⟩ := h
  exact ⟨other ++ before, after, by simp only [String.append_assoc]⟩

theorem Occurs.append_right {part text : String} (h : Occurs part text) (other : String) :
    Occurs part (text ++ other) := by
  obtain ⟨before, after, rfl⟩ := h
  exact ⟨before, after ++ other, by simp only [String.append_assoc]⟩

/-- Texts that are put one after another are parts of the whole. -/
theorem occurs_join {part : String} {parts : List String} (h : part ∈ parts) :
    Occurs part (String.join parts) := by
  obtain ⟨before, after, rfl⟩ := List.append_of_mem h
  exact ⟨String.join before, String.join after, by simp [String.append_assoc]⟩

/-- The header declares the structs of all kernels. -/
theorem occurs_header {signature : Signature} (h : signature ∈ catalogue) (stamp : String)
    (formats : List Texture.PixelFormat) :
    Occurs signature.struct.text (header stamp formats) := by
  have hjoin := occurs_join (List.mem_map_of_mem (f := fun s : Signature => s.struct.text) h)
  exact (hjoin.append_left _).append_right _

/-- The common text declares its structs. -/
theorem occurs_common_struct {s : Struct} (h : s ∈ Static.structs) :
    Occurs s.text Static.common := by
  have hjoin := occurs_join (List.mem_map_of_mem (f := Struct.text) h)
  unfold Static.common
  refine .append_right (.append_right (.append_right (.append_right (.append_right ?_ _) _) _) _) _
  exact hjoin.append_left _

/-- The common text declares the conversions and the functions that make closures. -/
theorem occurs_common_helper {f : Helper} (h : f ∈ Static.conversions ++ Static.closures) :
    Occurs f.text Static.common := by
  unfold Static.common
  rcases List.mem_append.1 h with h | h
  · refine .append_right (.append_right (.append_right (.append_left ?_ _) _) _) _
    exact occurs_join (List.mem_map_of_mem h)
  · refine .append_right (.append_left ?_ _) _
    exact occurs_join (List.mem_map_of_mem h)

variable {blocks : List Block} {l : Library} {stamp : String} {formats : List Texture.PixelFormat}

namespace Scope

/-- The source of a library begins with the header and the common text. -/
theorem exists_source_eq (l : Library) (stamp : String) (formats : List Texture.PixelFormat) :
    ∃ rest, l.source .standard stamp formats = header stamp formats ++ Static.common ++ rest := by
  refine ⟨"\n" ++ Static.nodes ++ "\n" ++ Static.bsdf ++ "\n" ++ l.body ++
    dispatcher "shade_surface" "material" (l.table .surface) ++
    dispatcher "shade_light" "shader" (l.table .light) ++ Static.wavefront ++ "\n" ++
    Static.envmap, ?_⟩
  simp only [Library.source, StaticText.standard, String.append_assoc]

/-- The source of a library declares the structs of a scope. -/
theorem occurs_struct {s : Struct} (h : s ∈ (below blocks).structs) :
    Occurs s.text (l.source .standard stamp formats) := by
  obtain ⟨rest, hsource⟩ := exists_source_eq l stamp formats
  rw [hsource]
  refine .append_right ?_ rest
  rcases List.mem_append.1 h with h | h
  · exact (occurs_common_struct h).append_left _
  · obtain ⟨signature, hsignature, rfl⟩ := List.mem_map.1 h
    exact (occurs_header hsignature stamp formats).append_right _

/-- The source of a library declares the functions of a scope. -/
theorem occurs_helper {f : Helper} (h : f ∈ (below blocks).helpers) :
    Occurs f.text (l.source .standard stamp formats) := by
  obtain ⟨rest, hsource⟩ := exists_source_eq l stamp formats
  rw [hsource]
  exact ((occurs_common_helper h).append_left _).append_right rest

/-- No two structs have the same name. -/
theorem nodup_structs : ((below blocks).structs.map Struct.name).Nodup := by
  show ((Static.structs ++ catalogue.map Signature.struct).map Struct.name).Nodup
  decide +kernel

end Scope

/-! ## Looking declarations up -/

/-- What is declared once is found by its name. -/
theorem find?_eq_some_of_nodup {α : Type} {name : α → String} {l : List α} {a : α}
    (h : (l.map name).Nodup) (ha : a ∈ l) : l.find? (name · == name a) = some a := by
  obtain ⟨before, after, rfl⟩ := List.append_of_mem ha
  refine List.find?_eq_some_iff_append.2 ⟨beq_self_eq_true _, before, after, rfl, fun b hb => ?_⟩
  rw [List.map_append, List.map_cons] at h
  have hne := (List.nodup_append.1 h).2.2 (name b) (List.mem_map_of_mem hb) (name a)
    List.mem_cons_self
  simpa using hne

namespace Scope

/-- A struct is found by its name. -/
theorem struct?_of_mem {s : Struct} (h : s ∈ (below blocks).structs) :
    (below blocks).struct? s.name = some s :=
  find?_eq_some_of_nodup nodup_structs h

/-- The fields of a kernel's struct. -/
theorem fieldType?_of_mem_catalogue {signature : Signature} (h : signature ∈ catalogue)
    (field : String) :
    (below blocks).fieldType? signature.name field = signature.struct.type? field := by
  have hmem : signature.struct ∈ (below blocks).structs :=
    List.mem_append_right _ (List.mem_map_of_mem h)
  have hfound : (below blocks).struct? signature.name = some signature.struct :=
    struct?_of_mem hmem
  rw [fieldType?, hfound, Option.bind_some]

/-- A variable that is declared once holds the struct of its block. -/
theorem lookup_locals {b : Block} (h : (blocks.map Block.identifier).Nodup) (hb : b ∈ blocks) :
    (below blocks).locals.lookup b.identifier = some b.invocation.signature.name := by
  obtain ⟨before, after, rfl⟩ := List.append_of_mem hb
  rw [List.map_append, List.map_cons] at h
  have hlocals : (below (before ++ b :: after)).locals = (below before).locals ++
      (b.identifier, b.invocation.signature.name) :: (below after).locals := List.map_append
  refine List.lookup_eq_some_iff.2 ⟨_, _, hlocals, fun p hp => ?_⟩
  obtain ⟨b', hb', rfl⟩ := List.mem_map.1 hp
  have hne := (List.nodup_append.1 h).2.2 b'.identifier (List.mem_map_of_mem hb')
    b.identifier List.mem_cons_self
  simpa using hne.symm

/-- A field of the variable of a block has the type that the block's struct declares. -/
theorem typeOf?_field {b : Block} (h : (blocks.map Block.identifier).Nodup) (hb : b ∈ blocks)
    (hmem : b.invocation.signature ∈ catalogue) (name : String) :
    (below blocks).typeOf? (.field b.identifier name) =
      b.invocation.signature.struct.type? name := by
  rw [typeOf?, lookup_locals h hb, Option.bind_some, fieldType?_of_mem_catalogue hmem]

/-- Vectors of the point that is shaded are made vectors of four numbers. -/
theorem typeOf?_context (c : Context) : (below blocks).typeOf? (.context c) = some "vec4f" := by
  have hfound : (below blocks).struct? Static.shadingContext.name = some Static.shadingContext :=
    struct?_of_mem (by simp [below, Static.structs])
  rw [typeOf?, fieldType?, hfound]
  cases c <;> rfl

/-- A color ramp is an array of its stops. -/
theorem typeOf?_ramp (stops : List (Option Graph.Parameters.RampElement)) :
    (below blocks).typeOf? (.ramp stops) = some (arrayType "RampElement" stops.length) := by
  have hfound : (below blocks).struct? Static.rampElement.name = some Static.rampElement :=
    struct?_of_mem (by simp [below, Static.structs])
  have hfields : ((below blocks).struct? "RampElement").map (·.fields.map (·.2)) =
      some ["f32", "vec4f"] := by
    show ((below blocks).struct? Static.rampElement.name).map _ = _
    rw [hfound]
    rfl
  rw [typeOf?, if_pos hfields]

/-- What stands for nothing has the type of the field it stands in. -/
theorem typeOf?_absent {target : FieldKind} (h : target.isRaw = false) :
    (below blocks).typeOf? (.absent target) = some target.typeName := by
  cases target with
  | raw => cases h
  | _ => rfl

/-- Data that is converted to data stays four numbers. -/
theorem typeOf?_conversions {e : Expression} (h : (below blocks).typeOf? e = some "vec4f") :
    (below blocks).typeOf? (.colorFromFloat e) = some "vec4f" ∧
      (below blocks).typeOf? (.floatFromColor e) = some "vec4f" ∧
      (below blocks).typeOf? (.floatFromVector e) = some "vec4f" := by
  refine ⟨?_, ?_, ?_⟩ <;>
  · rw [typeOf?, h]
    rfl

/-- Data becomes a closure. -/
theorem typeOf?_closureFromData {e : Expression} (h : (below blocks).typeOf? e = some "vec4f") :
    (below blocks).typeOf? (.closureFromData e) = some "Closure" := by
  rw [typeOf?, h]
  rfl

/-- Converting an expression gives it the type of the field it is put into. -/
theorem typeOf?_convert {source target : FieldKind} {e : Expression}
    (hsource : source.isRaw = false) (htarget : target.isRaw = false)
    (h : (below blocks).typeOf? e = some source.typeName) :
    (below blocks).typeOf? (.convert source target e) = some target.typeName := by
  cases source with
  | raw => cases hsource
  | shader =>
    cases target with
    | raw => cases htarget
    | shader => exact h
    | float | vector | color => exact typeOf?_absent htarget
  | float =>
    cases target with
    | raw => cases htarget
    | shader => exact typeOf?_closureFromData h
    | float => exact h
    | vector | color => exact (typeOf?_conversions h).1
  | vector =>
    cases target with
    | raw => cases htarget
    | shader => exact typeOf?_closureFromData h
    | float => exact (typeOf?_conversions h).2.2
    | vector | color => exact h
  | color =>
    cases target with
    | raw => cases htarget
    | shader => exact typeOf?_closureFromData h
    | float => exact (typeOf?_conversions h).2.1
    | vector | color => exact h

end Scope

end Candela.Shader
