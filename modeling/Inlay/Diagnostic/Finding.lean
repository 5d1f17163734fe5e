import Inlay.Diagnostic.Basic

/-!
# Findings

What the recognized diagnostics say, with exactly the fields that each of them has. The table
`Finding.rules` holds a row for each recognized name: the name and how the payload is read. A
diagnostic is unexplained when no row has its name or when a field that the row needs is missing.

* `Finding.ofDiagnostic`: reads a diagnostic by the table.
* `Finding.factory`: the name of the diagnostics that a finding is read from.
-/

namespace Inlay

/-- Where a type has to conform to an expected one, in diagnostics that also say whether
nullability alone makes the difference. -/
inductive Site where
  | expression
  | argument
  | initializer
  | assignment
  | returnValue
deriving DecidableEq, Repr

/-- Where a type has to conform to an expected one, in diagnostics that say nothing of
nullability. -/
inductive PlainSite where
  | flexibility
  | platform
  | result
deriving DecidableEq, Repr

/-- How serious an incompatibility is. -/
inductive Severity where
  | error
  | warning
deriving DecidableEq, Repr

/-- Where a type parameter is used against its variance: in a type as it is written, or in the
expansion of an alias. -/
inductive VarianceSite where
  | written
  | expanded
deriving DecidableEq, Repr

/-- What a recognized diagnostic says. -/
inductive Finding where
  | mismatch (site : Site) (expected actual : Ty) (nullabilityOnly : Bool)
  | plainMismatch (site : PlainSite) (expected actual : Ty)
  | condition (actual : Ty) (nullabilityOnly : Bool)
  | throwable (actual : Ty) (nullabilityOnly : Bool)
  | nullValue (expected : Ty)
  | upperBound (expected actual : Ty)
  | incompatible (severity : Severity) (first second : Ty)
  | varianceConflict (site : VarianceSite) (declared used : Variance)
  | noneApplicable (candidates : List Symbol)
  | inapplicable (candidate : Symbol)
  | ambiguousSuper (candidates : List Ty)
  | ambiguousOverload (candidates : List Symbol)
deriving DecidableEq

/-- Why nothing is read from a diagnostic: its name is not in the table, or a field is missing. -/
inductive Unexplained where
  | unrecognized
  | incomplete
deriving DecidableEq, Repr

def Site.factory : Site → String
  | .expression => "TYPE_MISMATCH"
  | .argument => "ARGUMENT_TYPE_MISMATCH"
  | .initializer => "INITIALIZER_TYPE_MISMATCH"
  | .assignment => "ASSIGNMENT_TYPE_MISMATCH"
  | .returnValue => "RETURN_TYPE_MISMATCH"

def PlainSite.factory : PlainSite → String
  | .flexibility => "TYPE_MISMATCH_WHEN_FLEXIBILITY_CHANGES"
  | .platform => "JAVA_TYPE_MISMATCH"
  | .result => "RESULT_TYPE_MISMATCH"

def Severity.factory : Severity → String
  | .error => "INCOMPATIBLE_TYPES"
  | .warning => "INCOMPATIBLE_TYPES_WARNING"

def VarianceSite.factory : VarianceSite → String
  | .written => "TYPE_VARIANCE_CONFLICT_ERROR"
  | .expanded => "TYPE_VARIANCE_CONFLICT_IN_EXPANDED_TYPE"

namespace Finding

/-- The name of the diagnostics that a finding is read from. -/
def factory : Finding → String
  | .mismatch site .. => site.factory
  | .plainMismatch site .. => site.factory
  | .condition .. => "CONDITION_TYPE_MISMATCH"
  | .throwable .. => "THROWABLE_TYPE_MISMATCH"
  | .nullValue .. => "NULL_FOR_NONNULL_TYPE"
  | .upperBound .. => "UPPER_BOUND_VIOLATED"
  | .incompatible severity .. => severity.factory
  | .varianceConflict site .. => site.factory
  | .noneApplicable .. => "NONE_APPLICABLE"
  | .inapplicable .. => "INAPPLICABLE_CANDIDATE"
  | .ambiguousSuper .. => "AMBIGUOUS_SUPER"
  | .ambiguousOverload .. => "OVERLOAD_RESOLUTION_AMBIGUITY"

/-! ## Reading payloads -/

def readMismatch (site : Site) (p : Payload) : Option Finding := do
  return .mismatch site (← p.expected) (← p.actual) p.nullabilityOnly

def readPlainMismatch (site : PlainSite) (p : Payload) : Option Finding := do
  return .plainMismatch site (← p.expected) (← p.actual)

def readCondition (p : Payload) : Option Finding := do
  return .condition (← p.actual) p.nullabilityOnly

def readThrowable (p : Payload) : Option Finding := do
  return .throwable (← p.actual) p.nullabilityOnly

def readNullValue (p : Payload) : Option Finding := do
  return .nullValue (← p.expected)

def readUpperBound (p : Payload) : Option Finding := do
  return .upperBound (← p.expectedBound) (← p.actualBound)

def readIncompatible (severity : Severity) (p : Payload) : Option Finding := do
  return .incompatible severity (← p.first) (← p.second)

def readVarianceConflict (site : VarianceSite) (p : Payload) : Option Finding := do
  return .varianceConflict site (← p.declaredVariance) (← p.usedVariance)

/-- Reads a call without applicable candidates; there may be none to name. -/
def readNoneApplicable (p : Payload) : Option Finding :=
  some (.noneApplicable p.candidateSymbols)

def readInapplicable (p : Payload) : Option Finding := do
  return .inapplicable (← p.candidate)

/-- Reads an ambiguous supertype; there may be none to name. -/
def readAmbiguousSuper (p : Payload) : Option Finding :=
  some (.ambiguousSuper p.candidateTypes)

/-- Reads an ambiguous call; there may be no candidates to name. -/
def readAmbiguousOverload (p : Payload) : Option Finding :=
  some (.ambiguousOverload p.candidateSymbols)

/-! ## The table -/

/-- A row of the table of recognized diagnostics. -/
structure Rule where
  factory : String
  read : Payload → Option Finding

/-- The recognized diagnostics. -/
def rules : List Rule := [
  ⟨"TYPE_MISMATCH", readMismatch .expression⟩,
  ⟨"TYPE_MISMATCH_WHEN_FLEXIBILITY_CHANGES", readPlainMismatch .flexibility⟩,
  ⟨"JAVA_TYPE_MISMATCH", readPlainMismatch .platform⟩,
  ⟨"ARGUMENT_TYPE_MISMATCH", readMismatch .argument⟩,
  ⟨"INITIALIZER_TYPE_MISMATCH", readMismatch .initializer⟩,
  ⟨"ASSIGNMENT_TYPE_MISMATCH", readMismatch .assignment⟩,
  ⟨"RESULT_TYPE_MISMATCH", readPlainMismatch .result⟩,
  ⟨"RETURN_TYPE_MISMATCH", readMismatch .returnValue⟩,
  ⟨"CONDITION_TYPE_MISMATCH", readCondition⟩,
  ⟨"THROWABLE_TYPE_MISMATCH", readThrowable⟩,
  ⟨"NULL_FOR_NONNULL_TYPE", readNullValue⟩,
  ⟨"UPPER_BOUND_VIOLATED", readUpperBound⟩,
  ⟨"INCOMPATIBLE_TYPES", readIncompatible .error⟩,
  ⟨"INCOMPATIBLE_TYPES_WARNING", readIncompatible .warning⟩,
  ⟨"TYPE_VARIANCE_CONFLICT_ERROR", readVarianceConflict .written⟩,
  ⟨"TYPE_VARIANCE_CONFLICT_IN_EXPANDED_TYPE", readVarianceConflict .expanded⟩,
  ⟨"NONE_APPLICABLE", readNoneApplicable⟩,
  ⟨"INAPPLICABLE_CANDIDATE", readInapplicable⟩,
  ⟨"AMBIGUOUS_SUPER", readAmbiguousSuper⟩,
  ⟨"OVERLOAD_RESOLUTION_AMBIGUITY", readAmbiguousOverload⟩
]

/-- Reads a diagnostic by the row that has its name. -/
def ofDiagnostic (d : Diagnostic) : Except Unexplained Finding :=
  match rules.find? (·.factory == d.factory) with
  | none => .error .unrecognized
  | some rule =>
    match rule.read d.payload with
    | none => .error .incomplete
    | some finding => .ok finding

/-- No two rows have the same name. -/
theorem rules_nodup : (rules.map (·.factory)).Nodup := by decide

end Finding

end Inlay
