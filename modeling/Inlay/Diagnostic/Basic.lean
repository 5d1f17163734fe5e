import Inlay.Span
import Inlay.Symbol
import Inlay.Ty.Equality

/-!
# Diagnostics

A diagnostic as the host reports it: the name of the check that produced it, what the check has to
say, and the ranges of source text it speaks of. The payload is open: each check fills in the fields
it has, and what reads a diagnostic looks only at the fields it needs.
-/

namespace Inlay

/-- The checks whose diagnostics are asked for: those that always run, those that have to be
switched on, or both. -/
inductive CheckerSet where
  | common
  | extended
  | all
deriving DecidableEq, Repr

/-- What a check has to say. Which fields are filled in depends on the check: the bounds belong to a
type argument, `first` and `second` to two incompatible types, and the variances to a type parameter
as it is declared and as it is used. -/
structure Payload where
  expected : Option Ty := none
  actual : Option Ty := none
  first : Option Ty := none
  second : Option Ty := none
  expectedBound : Option Ty := none
  actualBound : Option Ty := none
  nullabilityOnly : Bool := false
  declaredVariance : Option Variance := none
  usedVariance : Option Variance := none
  candidate : Option Symbol := none
  candidateSymbols : List Symbol := []
  candidateTypes : List Ty := []
deriving DecidableEq, Inhabited

namespace Payload

def empty : Payload := {}

def withExpected (p : Payload) (t : Ty) : Payload := { p with expected := some t }

def withActual (p : Payload) (t : Ty) : Payload := { p with actual := some t }

def withTypes (p : Payload) (first second : Ty) : Payload :=
  { p with first := some first, second := some second }

def withBounds (p : Payload) (expected actual : Ty) : Payload :=
  { p with expectedBound := some expected, actualBound := some actual }

def withNullabilityOnly (p : Payload) (only : Bool) : Payload := { p with nullabilityOnly := only }

def withVariances (p : Payload) (declared used : Variance) : Payload :=
  { p with declaredVariance := some declared, usedVariance := some used }

def withCandidate (p : Payload) (s : Symbol) : Payload := { p with candidate := some s }

def withCandidateSymbols (p : Payload) (ss : List Symbol) : Payload :=
  { p with candidateSymbols := ss }

def withCandidateTypes (p : Payload) (ts : List Ty) : Payload := { p with candidateTypes := ts }

end Payload

/-- A report of the check named `factory` about some ranges of source text. -/
structure Diagnostic where
  factory : String
  payload : Payload
  ranges : List Span
deriving DecidableEq, Inhabited

end Inlay
