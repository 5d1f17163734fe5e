/-!
# Variance

Variance of a type parameter where it is declared, or of a type argument where it is used.
-/

namespace Inlay

/-- How a type argument may vary: not at all, to supertypes, or to subtypes. -/
inductive Variance where
  | invariant
  | contravariant
  | covariant
deriving DecidableEq, Repr, Inhabited

/-- The keyword in front of a projected argument; an invariant argument has none. -/
def Variance.keyword : Variance → String
  | .invariant => ""
  | .contravariant => "in"
  | .covariant => "out"

/-- Only an invariant argument is written without a keyword. -/
theorem Variance.keyword_eq_empty_iff (v : Variance) : v.keyword = "" ↔ v = .invariant := by
  cases v <;> decide

end Inlay
