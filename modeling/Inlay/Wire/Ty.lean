import Inlay.Ty.Basic
import Inlay.Wire.Name

/-!
# Types in JSON

The JSON form of types. A type is a record of its shape and its nullability; shapes and projections
are variants.
-/

namespace Inlay

open Wire (Json)

/-! ## Writing -/

mutual

/-- The record of a type. -/
def Ty.toJson : Ty → Json
  | ⟨s, nullable⟩ => .object [("kind", s.toJson), ("nullable", .bool nullable)]
termination_by structural t => t

/-- The variant of a shape. -/
def Shape.toJson : Shape → Json
  | .named name arguments =>
    .object [("Class", .object
      [("class_id", Json.optional ClassName.toJson name),
       ("arguments", .array (Projection.listToJson arguments))])]
  | .function receiver parameters result =>
    .object [("Function", .object
      [("receiver", Ty.optionToJson receiver),
       ("parameters", .array (Ty.listToJson parameters)),
       ("return_type", result.toJson)])]
  | .intersection conjuncts =>
    .object [("Intersection", .object [("conjuncts", .array (Ty.listToJson conjuncts))])]
  | .flexible lower upper =>
    .object [("Flexible", .object [("lower", lower.toJson), ("upper", upper.toJson)])]
  | .nonNull underlying =>
    .object [("DefinitelyNotNull", .object [("original", underlying.toJson)])]
  | .captured projection =>
    .object [("Captured", .object [("projection", projection.toJson)])]
  | .parameter name => .object [("TypeParameter", .object [("name", .string name)])]
  | .error => .string "Error"
termination_by structural s => s

/-- The variant of a projection. -/
def Projection.toJson : Projection → Json
  | .star => .string "Star"
  | .argument variance type =>
    .object [("Argument", .object [("variance", variance.toJson), ("ty", type.toJson)])]
termination_by structural p => p

/-- The record of a type, or `null`. -/
def Ty.optionToJson : Option Ty → Json
  | none => .null
  | some t => t.toJson
termination_by structural t => t

/-- The records of some types. -/
def Ty.listToJson : List Ty → List Json
  | [] => []
  | t :: ts => t.toJson :: Ty.listToJson ts
termination_by structural ts => ts

/-- The variants of some projections. -/
def Projection.listToJson : List Projection → List Json
  | [] => []
  | p :: ps => p.toJson :: Projection.listToJson ps
termination_by structural ps => ps

end

/-! ## Reading -/

mutual

/-- Reads the record of a type. -/
def Ty.ofJson? (j : Json) : Option Ty :=
  match j.fields? ["kind", "nullable"] with
  | some [some kind, some nullable] => do
    return ⟨← Shape.ofJson? kind.value, ← nullable.value.bool?⟩
  | _ => none
termination_by sizeOf j
decreasing_by all_goals exact Json.Part.smaller _

/-- Reads the variant of a shape. -/
def Shape.ofJson? (j : Json) : Option Shape := do
  let (name, content) ← j.variant?
  match name, content with
  | "Error", content => if Json.Part.isVoid content then some .error else none
  | "Class", some content =>
    match ← content.members? ["class_id", "arguments"] with
    | [name, some arguments] =>
      return .named (← Json.optional? (fun p => ClassName.ofJson? p.value) name)
        (← (← arguments.items?).mapM fun p => Projection.ofJson? p.value)
    | _ => none
  | "Function", some content =>
    match ← content.members? ["receiver", "parameters", "return_type"] with
    | [receiver, some parameters, some result] =>
      return .function (← Json.optional? (fun p => Ty.ofJson? p.value) receiver)
        (← (← parameters.items?).mapM fun p => Ty.ofJson? p.value) (← Ty.ofJson? result.value)
    | _ => none
  | "Intersection", some content =>
    match ← content.members? ["conjuncts"] with
    | [some conjuncts] =>
      return .intersection (← (← conjuncts.items?).mapM fun p => Ty.ofJson? p.value)
    | _ => none
  | "Flexible", some content =>
    match ← content.members? ["lower", "upper"] with
    | [some lower, some upper] =>
      return .flexible (← Ty.ofJson? lower.value) (← Ty.ofJson? upper.value)
    | _ => none
  | "DefinitelyNotNull", some content =>
    match ← content.members? ["original"] with
    | [some underlying] => return .nonNull (← Ty.ofJson? underlying.value)
    | _ => none
  | "Captured", some content =>
    match ← content.members? ["projection"] with
    | [some projection] => return .captured (← Projection.ofJson? projection.value)
    | _ => none
  | "TypeParameter", some content =>
    match ← content.members? ["name"] with
    | [some name] => return .parameter (← name.value.string?)
    | _ => none
  | _, _ => none
termination_by sizeOf j
decreasing_by all_goals exact Json.Part.smaller _

/-- Reads the variant of a projection. -/
def Projection.ofJson? (j : Json) : Option Projection := do
  let (name, content) ← j.variant?
  match name, content with
  | "Star", content => if Json.Part.isVoid content then some .star else none
  | "Argument", some content =>
    match ← content.members? ["variance", "ty"] with
    | [some variance, some type] =>
      return .argument (← Variance.ofJson? variance.value) (← Ty.ofJson? type.value)
    | _ => none
  | _, _ => none
termination_by sizeOf j
decreasing_by all_goals exact Json.Part.smaller _

end

end Inlay
