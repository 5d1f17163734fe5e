import Inlay.ClassName
import Inlay.Variance

/-!
# Types

The types that diagnostics talk about. A type is a shape together with a nullability flag: being
nullable is a property every shape can have, not a shape of its own.

`Ty`, `Shape` and `Projection` are defined together, since classes are applied to projected types
and function types, intersections and the rest are built from types.
-/

namespace Inlay

mutual

/-- A type as the host reports it; `null` belongs to a nullable one. -/
structure Ty where
  shape : Shape
  nullable : Bool

/-- The kinds of types. The name of a class is absent when it cannot be resolved. A flexible type is
known only to lie between two bounds, a captured one is what inference puts in the place of a
projection, and an ill-formed expression has the type `error`. -/
inductive Shape where
  | named (name : Option ClassName) (arguments : List Projection)
  | function (receiver : Option Ty) (parameters : List Ty) (result : Ty)
  | intersection (conjuncts : List Ty)
  | flexible (lower upper : Ty)
  | nonNull (underlying : Ty)
  | captured (projection : Projection)
  | parameter (name : String)
  | error

/-- A type argument where it is used: any type at all, or a type with its variance. -/
inductive Projection where
  | star
  | argument (variance : Variance) (type : Ty)

end

/-- The text shown where a name is missing. -/
def placeholder : String := "??"

namespace Ty

/-- The type of a shape that does not contain `null`. -/
def ofShape (s : Shape) : Ty := ⟨s, false⟩

/-- The class with the given qualified name, applied to arguments. -/
def applied (name : String) (arguments : List Projection) : Ty :=
  ofShape (.named (some (.parse name)) arguments)

/-- The class with the given qualified name. -/
def simple (name : String) : Ty := applied name []

instance : Inhabited Ty := ⟨ofShape .error⟩

/-- The same shape with another nullability. -/
def withNullable (t : Ty) (nullable : Bool) : Ty := { t with nullable }

/-- The type together with `null`. -/
def orNull (t : Ty) : Ty := t.withNullable true

/-- The word for the nullability of a type. -/
def nullabilityLabel (t : Ty) : String := if t.nullable then "nullable" else "non-nullable"

/-- The name of a resolved class. -/
def className? (t : Ty) : Option ClassName :=
  match t.shape with
  | .named name _ => name
  | _ => none

/-- The type arguments of a class; other shapes have none. -/
def arguments (t : Ty) : List Projection :=
  match t.shape with
  | .named _ arguments => arguments
  | _ => []

/-- Whether the type is a type parameter. -/
def isParameter (t : Ty) : Bool :=
  match t.shape with
  | .parameter _ => true
  | _ => false

/-- Equal words for equal flags, and only for those. -/
theorem nullabilityLabel_eq_iff (s t : Ty) :
    s.nullabilityLabel = t.nullabilityLabel ↔ s.nullable = t.nullable := by
  cases hs : s.nullable <;> cases ht : t.nullable <;> simp [nullabilityLabel, hs, ht]

end Ty

namespace Projection

/-- The projection that stands for exactly one type. -/
def exactly (t : Ty) : Projection := .argument .invariant t

/-- The projected type. -/
def type? : Projection → Option Ty
  | .star => none
  | .argument _ t => some t

/-- The variance of the projection; `*` counts as invariant. -/
def variance : Projection → Variance
  | .star => .invariant
  | .argument v _ => v

end Projection

end Inlay
