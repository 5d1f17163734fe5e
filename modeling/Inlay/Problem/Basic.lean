import Inlay.Diagnostic.Finding

/-!
# Problems

What is explained to the user. Many findings come down to the same problem: every way of expecting
one type and finding another is a `mismatch`. Some findings name only one of the two types, since
the other follows from the language (a condition is a boolean); the host says what those types are
(`Builtins`).
-/

namespace Inlay

/-- Types that some findings imply: that of conditions, of what can be thrown, and of `null`. -/
structure Builtins where
  boolean : Ty
  throwable : Ty
  nullValue : Ty
deriving DecidableEq

namespace Builtins

/-- The types of the Kotlin standard library. -/
def standard : Builtins where
  boolean := .simple "kotlin.Boolean"
  throwable := .simple "kotlin.Throwable"
  nullValue := (Ty.simple "kotlin.Nothing").orNull

instance : Inhabited Builtins := ⟨standard⟩

end Builtins

/-- What went wrong, as far as a hint can show it. -/
inductive Problem where
  | mismatch (expected actual : Ty) (nullabilityOnly : Bool)
  | incompatible (first second : Ty)
  | variance (declared used : Variance)
  | noneApplicable (candidates : List Symbol)
  | ambiguousType (candidates : List Ty)
  | ambiguousCandidate (candidates : List Symbol)
deriving DecidableEq

namespace Problem

/-- The name of a problem in the log. -/
def name : Problem → String
  | .mismatch .. => "expected-actual type mismatch"
  | .incompatible .. => "type mismatch"
  | .variance .. => "type variance mismatch"
  | .noneApplicable .. => "none applicable"
  | .ambiguousType .. => "ambiguous type"
  | .ambiguousCandidate .. => "ambiguous candidate"

/-- The problem behind a finding. -/
def ofFinding (builtins : Builtins) : Finding → Problem
  | .mismatch _ expected actual nullabilityOnly => .mismatch expected actual nullabilityOnly
  | .plainMismatch _ expected actual => .mismatch expected actual false
  | .condition actual nullabilityOnly => .mismatch builtins.boolean actual nullabilityOnly
  | .throwable actual nullabilityOnly => .mismatch builtins.throwable actual nullabilityOnly
  | .nullValue expected => .mismatch expected builtins.nullValue false
  | .upperBound expected actual => .mismatch expected actual false
  | .incompatible _ first second => .incompatible first second
  | .varianceConflict _ declared used => .variance declared used
  | .noneApplicable candidates => .noneApplicable candidates
  | .inapplicable candidate => .noneApplicable [candidate]
  | .ambiguousSuper candidates => .ambiguousType candidates
  | .ambiguousOverload candidates => .ambiguousCandidate candidates

/-- The problem that a diagnostic reports. -/
def classify (builtins : Builtins) (d : Diagnostic) : Except Unexplained Problem :=
  (Finding.ofDiagnostic d).map (ofFinding builtins)

end Problem

end Inlay
