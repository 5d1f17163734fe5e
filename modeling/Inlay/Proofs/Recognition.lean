import Inlay.Proofs.Classification

/-!
# Findings and the diagnostics they are read from

A finding has a name (`Finding.factory`) and says something about certain fields
(`Finding.contents`). It is read from the diagnostics of that name whose payload says the same in
these fields, and from no others (`Finding.ofDiagnostic_eq_ok_iff`). In particular it is read from
the payload that says just this much (`Finding.payload`), so the table of recognized diagnostics has
a row for every finding, and none of its rows hides another or mixes up two fields.

The argument goes through the row of a finding (`Finding.rule`), which is found by its name since no
two rows have the same.
-/

namespace Inlay

namespace Finding

/-! ## What a finding says -/

/-- The fields that a finding speaks of, with their content. -/
def contents : Finding → List (Field × FieldValue)
  | .mismatch _ expected actual only =>
    [(.expected, .type expected), (.actual, .type actual), (.nullabilityOnly, .flag only)]
  | .plainMismatch _ expected actual => [(.expected, .type expected), (.actual, .type actual)]
  | .condition actual only | .throwable actual only =>
    [(.actual, .type actual), (.nullabilityOnly, .flag only)]
  | .nullValue expected => [(.expected, .type expected)]
  | .upperBound expected actual => [(.expectedBound, .type expected), (.actualBound, .type actual)]
  | .incompatible _ first second => [(.first, .type first), (.second, .type second)]
  | .varianceConflict _ declared used =>
    [(.declaredVariance, .variance declared), (.usedVariance, .variance used)]
  | .noneApplicable candidates | .ambiguousOverload candidates =>
    [(.candidateSymbols, .symbols candidates)]
  | .inapplicable candidate => [(.candidate, .symbol candidate)]
  | .ambiguousSuper candidates => [(.candidateTypes, .types candidates)]

/-- The payload of a check that reports the finding. -/
def payload : Finding → Payload
  | .mismatch _ expected actual only =>
    Payload.empty |>.withExpected expected |>.withActual actual |>.withNullabilityOnly only
  | .plainMismatch _ expected actual => Payload.empty |>.withExpected expected |>.withActual actual
  | .condition actual only | .throwable actual only =>
    Payload.empty |>.withActual actual |>.withNullabilityOnly only
  | .nullValue expected => Payload.empty.withExpected expected
  | .upperBound expected actual => Payload.empty.withBounds expected actual
  | .incompatible _ first second => Payload.empty.withTypes first second
  | .varianceConflict _ declared used => Payload.empty.withVariances declared used
  | .noneApplicable candidates | .ambiguousOverload candidates =>
    Payload.empty.withCandidateSymbols candidates
  | .inapplicable candidate => Payload.empty.withCandidate candidate
  | .ambiguousSuper candidates => Payload.empty.withCandidateTypes candidates

theorem get?_payload (f : Finding) (field : Field) :
    f.payload.get? field = (f.contents.lookup field).or (Payload.empty.get? field) := by
  cases f <;> cases field <;> rfl

/-! ## The row of a finding -/

/-- How findings of this kind are read. -/
def rule : Finding → Rule
  | .mismatch site .. => ⟨site.factory, readMismatch site⟩
  | .plainMismatch site .. => ⟨site.factory, readPlainMismatch site⟩
  | .condition .. => ⟨"CONDITION_TYPE_MISMATCH", readCondition⟩
  | .throwable .. => ⟨"THROWABLE_TYPE_MISMATCH", readThrowable⟩
  | .nullValue .. => ⟨"NULL_FOR_NONNULL_TYPE", readNullValue⟩
  | .upperBound .. => ⟨"UPPER_BOUND_VIOLATED", readUpperBound⟩
  | .incompatible severity .. => ⟨severity.factory, readIncompatible severity⟩
  | .varianceConflict site .. => ⟨site.factory, readVarianceConflict site⟩
  | .noneApplicable .. => ⟨"NONE_APPLICABLE", readNoneApplicable⟩
  | .inapplicable .. => ⟨"INAPPLICABLE_CANDIDATE", readInapplicable⟩
  | .ambiguousSuper .. => ⟨"AMBIGUOUS_SUPER", readAmbiguousSuper⟩
  | .ambiguousOverload .. => ⟨"OVERLOAD_RESOLUTION_AMBIGUITY", readAmbiguousOverload⟩

theorem factory_rule (f : Finding) : f.rule.factory = f.factory := by
  cases f <;> rfl

theorem rule_mem (f : Finding) : f.rule ∈ rules := by
  cases f with
  | mismatch site => cases site <;> simp [rule, rules, Site.factory]
  | plainMismatch site => cases site <;> simp [rule, rules, PlainSite.factory]
  | incompatible severity => cases severity <;> simp [rule, rules, Severity.factory]
  | varianceConflict site => cases site <;> simp [rule, rules, VarianceSite.factory]
  | _ => simp [rule, rules]

theorem read_rule_iff (f : Finding) (p : Payload) :
    f.rule.read p = some f ↔ ∀ x ∈ f.contents, p.get? x.1 = some x.2 := by
  cases f with
  | mismatch => simp [rule, readMismatch, contents, Payload.get?, Option.bind_eq_some_iff]
  | plainMismatch => simp [rule, readPlainMismatch, contents, Payload.get?, Option.bind_eq_some_iff]
  | condition => simp [rule, readCondition, contents, Payload.get?, Option.bind_eq_some_iff]
  | throwable => simp [rule, readThrowable, contents, Payload.get?, Option.bind_eq_some_iff]
  | nullValue => simp [rule, readNullValue, contents, Payload.get?, Option.bind_eq_some_iff]
  | upperBound => simp [rule, readUpperBound, contents, Payload.get?, Option.bind_eq_some_iff]
  | incompatible => simp [rule, readIncompatible, contents, Payload.get?, Option.bind_eq_some_iff]
  | varianceConflict =>
    simp [rule, readVarianceConflict, contents, Payload.get?, Option.bind_eq_some_iff]
  | noneApplicable => simp [rule, readNoneApplicable, contents, Payload.get?]
  | inapplicable => simp [rule, readInapplicable, contents, Payload.get?, Option.bind_eq_some_iff]
  | ambiguousSuper => simp [rule, readAmbiguousSuper, contents, Payload.get?]
  | ambiguousOverload => simp [rule, readAmbiguousOverload, contents, Payload.get?]

theorem read_payload (f : Finding) : f.rule.read f.payload = some f := by
  cases f <;> rfl

/-! ## Reading by the table -/

variable {d : Diagnostic} {f : Finding}

/-- No row hides another: a diagnostic is read by any row that has its name. -/
theorem ofDiagnostic_of_rule {row : Rule} (hrow : row ∈ rules) (hname : row.factory = d.factory) :
    ofDiagnostic d = .ok f ↔ row.read d.payload = some f := by
  obtain ⟨-, hnone⟩ | ⟨row', hrow', hname', hread⟩ := ofDiagnostic_cases d
  · exact absurd hname (hnone row hrow)
  · obtain rfl := rule_unique hrow hrow' (hname.trans hname'.symm)
    obtain ⟨hread, hd⟩ | ⟨f', hread, hd⟩ := hread
    · simp [hread, hd]
    · simp [hread, hd]

/-- A finding is read from the diagnostics that have its name and say what it says. -/
theorem ofDiagnostic_eq_ok_iff : ofDiagnostic d = .ok f ↔
    f.factory = d.factory ∧ ∀ x ∈ f.contents, d.payload.get? x.1 = some x.2 := by
  rw [← read_rule_iff]
  constructor
  · intro h
    have hname := factory_of_ofDiagnostic h
    exact ⟨hname, (ofDiagnostic_of_rule f.rule_mem (f.factory_rule.trans hname)).1 h⟩
  · rintro ⟨hname, hread⟩
    exact (ofDiagnostic_of_rule f.rule_mem (f.factory_rule.trans hname)).2 hread

/-- **The table and the names of findings are inverse to each other.** A finding is read from the
diagnostics that have its name and say what it says, field by field, and from no others. One of them
is the diagnostic, at any ranges, whose payload is filled in with just the fields of the finding. No
row of the table hides another. -/
theorem ofDiagnostic_inverse :
    (∀ (d : Diagnostic) (f : Finding), ofDiagnostic d = .ok f ↔
      f.factory = d.factory ∧ ∀ x ∈ f.contents, d.payload.get? x.1 = some x.2) ∧
    (∀ (f : Finding) (ranges : List Span), ofDiagnostic ⟨f.factory, f.payload, ranges⟩ = .ok f) ∧
    (∀ (f : Finding) (field : Field), f.payload.get? field =
      (f.contents.lookup field).or (Payload.empty.get? field)) ∧
    ∀ row ∈ rules, ∀ (p : Payload) (ranges : List Span) (f : Finding),
      ofDiagnostic ⟨row.factory, p, ranges⟩ = .ok f ↔ row.read p = some f := by
  refine ⟨fun d f => ofDiagnostic_eq_ok_iff, fun f ranges => ?_, get?_payload, ?_⟩
  · rw [ofDiagnostic_of_rule f.rule_mem f.factory_rule]
    exact f.read_payload
  · intro row hrow p ranges f
    exact ofDiagnostic_of_rule hrow rfl

/-- A bound that is broken is told from a type that is not the expected one. -/
theorem ofDiagnostic_inverse_upperBound :
    let row : Rule := ⟨"UPPER_BOUND_VIOLATED", readUpperBound⟩
    let p := (Payload.empty.withBounds (.simple "A") (.simple "B")).withExpected (.simple "C")
    row ∈ rules ∧
      ofDiagnostic ⟨row.factory, p, []⟩ = .ok (.upperBound (.simple "A") (.simple "B")) := by
  intro row p
  have hrow : row ∈ rules := by simp [row, rules]
  have hread : row.read p = some (.upperBound (.simple "A") (.simple "B")) := rfl
  obtain ⟨-, -, -, hrows⟩ := ofDiagnostic_inverse
  exact ⟨hrow, (hrows row hrow p [] _).2 hread⟩

end Finding

end Inlay
