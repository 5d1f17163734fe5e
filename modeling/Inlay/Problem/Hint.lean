import Inlay.Hint.Draft
import Inlay.Problem.Basic
import Inlay.Ty.Instance
import Inlay.Ty.Names

/-!
# The hint of a problem

A problem is explained by at most one hint next to the reported ranges:

* a mismatch by `: Actual ⇏ Expected`, or `: nullable ⇏ non-nullable` where nullability alone makes
  the difference;
* incompatible types by `: A ≠ B`;
* variances by `out ≠ in`, in front of the ranges;
* an ambiguous type by `<A or B>`.

Nothing is shown where the two sides are equal, or where there are no ranges. Calls without
applicable candidates are explained argument by argument elsewhere, and ambiguous calls not at all.
-/

namespace Inlay

namespace Hint

/-- Stands between a type and the type it does not conform to. -/
def doesNotConform : String := " ⇏ "

/-- Stands between two incompatible types or variances. -/
def notEqual : String := " ≠ "

/-- A hint in front of the first range, if there is one. -/
def beforeRanges (ranges : List Span) (pieces : List Piece) : Option Hint :=
  (Span.before? ranges).map fun offset => .before offset (Piece.compose pieces)

/-- A hint behind the last range, if there is one. -/
def afterRanges (ranges : List Span) (pieces : List Piece) : Option Hint :=
  (Span.after? ranges).map fun offset => .after offset (Piece.compose pieces)

/-- Two different types with a sign between them, in a form that tells them apart if one does.
Equal types give no hint. -/
def comparison (ranges : List Span) (left : Ty) (sign : String) (right : Ty) : Option Hint :=
  if left = right then none
  else
    let form := Names.pairForm left.names right.names
    afterRanges ranges [.text ": ", .type left form, .text sign, .type right form]

/-- The nullability of two types that differ in it. -/
def nullability (ranges : List Span) (actual expected : Ty) : Option Hint :=
  if actual.nullable = expected.nullable then none
  else
    afterRanges ranges [.text ": ", .text actual.nullabilityLabel, .text doesNotConform,
      .text expected.nullabilityLabel]

/-- A choice of types in angle brackets, each in a form that tells it from the others. -/
def alternatives (ranges : List Span) (types : List Ty) : Option Hint :=
  if types.isEmpty then none
  else
    let shown := List.zipWith .type types (Names.listForms (types.map Ty.names))
    afterRanges ranges (.text "<" :: shown.intersperse (.text " or ") ++ [.text ">"])

end Hint

/-- The hint of a problem. `declaredType` asks for the type that the expression at the ranges is
declared with, which takes the place of a less specific actual type; only a mismatch that is not by
nullability alone asks for it. -/
def Problem.hint {m : Type → Type} [Monad m] (declaredType : m (Option Ty)) (ranges : List Span) :
    Problem → m (Option Hint)
  | .mismatch expected actual true => return Hint.nullability ranges actual expected
  | .mismatch expected actual false => do
    let declared ← declaredType
    return Hint.comparison ranges (Ty.refine declared actual) Hint.doesNotConform expected
  | .incompatible first second => return Hint.comparison ranges first Hint.notEqual second
  | .variance declared used =>
    return Hint.beforeRanges ranges
      [.text declared.keyword, .text Hint.notEqual, .text used.keyword]
  | .ambiguousType candidates => return Hint.alternatives ranges candidates
  | .noneApplicable _ | .ambiguousCandidate _ => return none

end Inlay
