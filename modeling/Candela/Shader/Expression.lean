import Candela.Decimal.Layout
import Candela.Geometry.Vector
import Candela.Graph.Parameters
import Candela.Graph.Socket
import Candela.Shader.Static.Common

/-!
# Expressions of generated code

What is assigned to the field of a kernel's struct. Expressions are data until the whole library is
written; `Expression.text` is their only spelling.
-/

namespace Candela.Shader

open Candela.Graph.Parameters (RampElement)

/-- Numbers of shader text: as in a report, but a zero keeps its sign, and what is not finite is
zero. -/
def numberLayout : Decimal.Layout :=
  { Decimal.report with
    signedZero := true
    infinity := "0.0"
    negativeInfinity := "0.0"
    nan := "0.0" }

/-- The literal of a number. -/
def numberText (x : Float32) : String := numberLayout.single x

/-- The literal of a vector. -/
def vec4Text (v : Vec4 Float32) : String :=
  "vec4f(" ++ ", ".intercalate (v.toList.map numberText) ++ ")"

/-- A vector of the point that is shaded. -/
inductive Context where
  | uv
  | generated
  | normal
  deriving DecidableEq

/-- The name of a vector of the point that is shaded. -/
def Context.name : Context → String
  | uv => "uv"
  | generated => "generated"
  | normal => "normal"

/-- An expression of generated code. -/
inductive Expression where
  /-- Four numbers. -/
  | constant (v : Vec4 Float32)
  /-- Four zeros. -/
  | zero
  /-- A vector of the point that is shaded. -/
  | context (c : Context)
  /-- A field of the struct of another node. -/
  | field (identifier name : String)
  /-- A number as a color or vector. -/
  | colorFromFloat (e : Expression)
  /-- A color as a number. -/
  | floatFromColor (e : Expression)
  /-- A vector as a number. -/
  | floatFromVector (e : Expression)
  /-- Data as a closure. -/
  | closureFromData (e : Expression)
  /-- The closure that does nothing. -/
  | noClosure
  /-- One number. -/
  | number (x : Float32)
  /-- A block of numbers. -/
  | numbers (xs : List Float32)
  /-- The stops of a color ramp; those without a value are unused. -/
  | ramp (stops : List (Option RampElement))
  deriving DecidableEq

/-- The text of a stop of a color ramp. -/
def rampElementText : Option RampElement → String
  | some e => "RampElement(" ++ numberText e.position ++ ", " ++ vec4Text e.color ++ ")"
  | none => "RampElement()"

/-- The text of an expression. -/
def Expression.text : Expression → String
  | constant v => vec4Text v
  | zero => "vec4f(0.0)"
  | context c => "vec4f((*shading)." ++ c.name ++ ", 0.0)"
  | field identifier name => identifier ++ "." ++ name
  | colorFromFloat e => Static.colorFromFloat.call [e.text]
  | floatFromColor e => Static.floatFromColor.call [e.text]
  | floatFromVector e => Static.floatFromVector.call [e.text]
  | closureFromData e => Static.closureFromData.call [e.text]
  | noClosure => Static.closureNone.call []
  | number x => numberText x
  | numbers xs =>
    "array<f32, " ++ toString xs.length ++ ">(" ++ ", ".intercalate (xs.map numberText) ++ ")"
  | ramp stops =>
    "array<RampElement, " ++ toString stops.length ++ ">(\n        " ++
      ",\n        ".intercalate (stops.map rampElementText) ++ "\n    )"

/-- The value that stands for nothing in a field. -/
def Expression.absent : FieldKind → Expression
  | .shader => noClosure
  | _ => zero

/-- An expression that reads a field of one kind, for a field of another. A closure is no data, and
stands for nothing where data is wanted. -/
def Expression.convert (source target : FieldKind) (e : Expression) : Expression :=
  match source, target with
  | .shader, .shader => e
  | .shader, _ => absent target
  | _, .shader => closureFromData e
  | .float, .color | .float, .vector => colorFromFloat e
  | .color, .float => floatFromColor e
  | .vector, .float => floatFromVector e
  | _, _ => e

/-- A literal of a graph for a field, if the field can hold one. Colors are opaque unless they say
otherwise. -/
def Expression.ofLiteral? (value : Graph.Literal) : FieldKind → Option Expression
  | .color =>
    match value with
    | .scalar x => some (constant ⟨x, x, x, 1⟩)
    | .vector xs => some (constant ((Graph.Literal.vector xs).toVec4 1))
  | .float | .vector => some (constant (value.toVec4 0))
  | .shader | .raw _ => none

end Candela.Shader
