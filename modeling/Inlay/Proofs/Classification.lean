import Inlay.Problem.Basic
import Mathlib.Data.List.Forall2
import Mathlib.Data.List.Nodup

/-!
# The classification of diagnostics as a table

`Problem.classify` reads a diagnostic to a finding and reduces the finding to a problem. Here both
steps are one table (`Problem.table`): for each name the kind of problem, and where the parts of the
problem come from. What an entry of the table needs of a payload, and what it looks at, are lists of
fields.

* `Problem.classify_eq_ok_iff`: a diagnostic has the problem that the entry of its name gives. The
  table is compared with the rows of `Finding.rules` one by one (`Problem.rules_match`).
* `Problem.Entry.Gives.mono`: an entry looks at no other fields than its own.
* `Problem.classify_builtins`: other built-in types change the side that a diagnostic implies, and
  nothing else.
* `Problem.classify_table`: all of it.
-/

namespace Inlay

/-! ## Fields -/

/-- The fields of a payload. -/
inductive Field where
  | expected | actual | first | second | expectedBound | actualBound | nullabilityOnly
  | declaredVariance | usedVariance | candidate | candidateSymbols | candidateTypes
deriving DecidableEq

/-- What stands in a field. -/
inductive FieldValue where
  | type (t : Ty)
  | flag (b : Bool)
  | variance (v : Variance)
  | symbol (s : Symbol)
  | symbols (ss : List Symbol)
  | types (ts : List Ty)
deriving DecidableEq

/-- What stands in a field of a payload. The flag and the lists are never absent. -/
def Payload.get? (p : Payload) : Field → Option FieldValue
  | .expected => p.expected.map .type
  | .actual => p.actual.map .type
  | .first => p.first.map .type
  | .second => p.second.map .type
  | .expectedBound => p.expectedBound.map .type
  | .actualBound => p.actualBound.map .type
  | .nullabilityOnly => some (.flag p.nullabilityOnly)
  | .declaredVariance => p.declaredVariance.map .variance
  | .usedVariance => p.usedVariance.map .variance
  | .candidate => p.candidate.map .symbol
  | .candidateSymbols => some (.symbols p.candidateSymbols)
  | .candidateTypes => some (.types p.candidateTypes)

/-- Every field that is present in `p` is present in `p'` with the same content. -/
def Payload.FilledIn (p p' : Payload) : Prop := ∀ f v, p.get? f = some v → p'.get? f = some v

namespace Problem

/-! ## The table -/

/-- Where one side of a mismatch comes from. -/
inductive Source where
  | expected | actual | expectedBound | actualBound | boolean | throwable | nullValue

/-- The type that a side of a mismatch has, if it is not missing. -/
def Source.type? (builtins : Builtins) (p : Payload) : Source → Option Ty
  | .expected => p.expected
  | .actual => p.actual
  | .expectedBound => p.expectedBound
  | .actualBound => p.actualBound
  | .boolean => some builtins.boolean
  | .throwable => some builtins.throwable
  | .nullValue => some builtins.nullValue

/-- The fields that a side of a mismatch is taken from. -/
def Source.fields : Source → List Field
  | .expected => [.expected]
  | .actual => [.actual]
  | .expectedBound => [.expectedBound]
  | .actualBound => [.actualBound]
  | .boolean | .throwable | .nullValue => []

/-- How the payloads of a diagnostic are understood. -/
inductive Entry where
  /-- A mismatch of an expected type `left` and an actual type `right`; `flagged` if the payload
  says whether nullability alone makes the difference. -/
  | mismatch (left right : Source) (flagged : Bool)
  | incompatible
  | variance
  | noneApplicable
  | inapplicable
  | ambiguousType
  | ambiguousCandidate

namespace Entry

/-- The fields that have to be present. -/
def required : Entry → List Field
  | .mismatch left right _ => left.fields ++ right.fields
  | .incompatible => [.first, .second]
  | .variance => [.declaredVariance, .usedVariance]
  | .inapplicable => [.candidate]
  | .noneApplicable | .ambiguousType | .ambiguousCandidate => []

/-- The fields that are copied and always present. -/
def copied : Entry → List Field
  | .mismatch _ _ flagged => if flagged then [.nullabilityOnly] else []
  | .noneApplicable | .ambiguousCandidate => [.candidateSymbols]
  | .ambiguousType => [.candidateTypes]
  | .incompatible | .variance | .inapplicable => []

/-- The problem that a payload is understood as. -/
def Gives (builtins : Builtins) (p : Payload) : Entry → Problem → Prop
  | .mismatch left right flagged, problem => ∃ s t, left.type? builtins p = some s ∧
      right.type? builtins p = some t ∧ problem = .mismatch s t (flagged && p.nullabilityOnly)
  | .incompatible, problem => ∃ s t, p.first = some s ∧ p.second = some t ∧
      problem = .incompatible s t
  | .variance, problem => ∃ v w, p.declaredVariance = some v ∧ p.usedVariance = some w ∧
      problem = .variance v w
  | .noneApplicable, problem => problem = .noneApplicable p.candidateSymbols
  | .inapplicable, problem => ∃ c, p.candidate = some c ∧ problem = .noneApplicable [c]
  | .ambiguousType, problem => problem = .ambiguousType p.candidateTypes
  | .ambiguousCandidate, problem => problem = .ambiguousCandidate p.candidateSymbols

end Entry

/-- The recognized diagnostics and how they are understood. -/
def table : List (String × Entry) := [
  ("TYPE_MISMATCH", .mismatch .expected .actual true),
  ("TYPE_MISMATCH_WHEN_FLEXIBILITY_CHANGES", .mismatch .expected .actual false),
  ("JAVA_TYPE_MISMATCH", .mismatch .expected .actual false),
  ("ARGUMENT_TYPE_MISMATCH", .mismatch .expected .actual true),
  ("INITIALIZER_TYPE_MISMATCH", .mismatch .expected .actual true),
  ("ASSIGNMENT_TYPE_MISMATCH", .mismatch .expected .actual true),
  ("RESULT_TYPE_MISMATCH", .mismatch .expected .actual false),
  ("RETURN_TYPE_MISMATCH", .mismatch .expected .actual true),
  ("CONDITION_TYPE_MISMATCH", .mismatch .boolean .actual true),
  ("THROWABLE_TYPE_MISMATCH", .mismatch .throwable .actual true),
  ("NULL_FOR_NONNULL_TYPE", .mismatch .expected .nullValue false),
  ("UPPER_BOUND_VIOLATED", .mismatch .expectedBound .actualBound false),
  ("INCOMPATIBLE_TYPES", .incompatible),
  ("INCOMPATIBLE_TYPES_WARNING", .incompatible),
  ("TYPE_VARIANCE_CONFLICT_ERROR", .variance),
  ("TYPE_VARIANCE_CONFLICT_IN_EXPANDED_TYPE", .variance),
  ("NONE_APPLICABLE", .noneApplicable),
  ("INAPPLICABLE_CANDIDATE", .inapplicable),
  ("AMBIGUOUS_SUPER", .ambiguousType),
  ("OVERLOAD_RESOLUTION_AMBIGUITY", .ambiguousCandidate)
]

/-! ## Readings of a payload -/

/-- A reading of payloads finds what an entry of the table gives. -/
def Matches (read : Payload → Option Finding) (entry : Entry) : Prop :=
  ∀ builtins p problem,
    (read p).map (ofFinding builtins) = some problem ↔ entry.Gives builtins p problem

section
open Finding

theorem map_read_one {α : Type} {x : Option α} {f : α → Finding} {builtins : Builtins}
    {problem : Problem} :
    (do return f (← x) : Option Finding).map (ofFinding builtins) = some problem ↔
      ∃ a, x = some a ∧ problem = ofFinding builtins (f a) := by
  cases x <;> simp [eq_comm]

theorem map_read_two {α β : Type} {x : Option α} {y : Option β} {f : α → β → Finding}
    {builtins : Builtins} {problem : Problem} :
    (do return f (← x) (← y) : Option Finding).map (ofFinding builtins) = some problem ↔
      ∃ a b, x = some a ∧ y = some b ∧ problem = ofFinding builtins (f a b) := by
  cases x <;> cases y <;> simp [eq_comm]

theorem readMismatch_matches (site : Site) :
    Matches (readMismatch site) (.mismatch .expected .actual true) :=
  fun _ _ _ => map_read_two

theorem readPlainMismatch_matches (site : PlainSite) :
    Matches (readPlainMismatch site) (.mismatch .expected .actual false) :=
  fun _ _ _ => map_read_two

theorem readCondition_matches : Matches readCondition (.mismatch .boolean .actual true) := by
  intro builtins p problem
  refine map_read_one.trans ?_
  simp [Entry.Gives, Source.type?, ofFinding]

theorem readThrowable_matches : Matches readThrowable (.mismatch .throwable .actual true) := by
  intro builtins p problem
  refine map_read_one.trans ?_
  simp [Entry.Gives, Source.type?, ofFinding]

theorem readNullValue_matches : Matches readNullValue (.mismatch .expected .nullValue false) := by
  intro builtins p problem
  refine map_read_one.trans ?_
  simp [Entry.Gives, Source.type?, ofFinding]

theorem readUpperBound_matches :
    Matches readUpperBound (.mismatch .expectedBound .actualBound false) :=
  fun _ _ _ => map_read_two

theorem readIncompatible_matches (severity : Severity) :
    Matches (readIncompatible severity) .incompatible :=
  fun _ _ _ => map_read_two

theorem readVarianceConflict_matches (site : VarianceSite) :
    Matches (readVarianceConflict site) .variance :=
  fun _ _ _ => map_read_two

theorem readNoneApplicable_matches : Matches readNoneApplicable .noneApplicable :=
  fun _ _ _ => by simp [readNoneApplicable, Entry.Gives, ofFinding, eq_comm]

theorem readInapplicable_matches : Matches readInapplicable .inapplicable :=
  fun _ _ _ => map_read_one

theorem readAmbiguousSuper_matches : Matches readAmbiguousSuper .ambiguousType :=
  fun _ _ _ => by simp [readAmbiguousSuper, Entry.Gives, ofFinding, eq_comm]

theorem readAmbiguousOverload_matches : Matches readAmbiguousOverload .ambiguousCandidate :=
  fun _ _ _ => by simp [readAmbiguousOverload, Entry.Gives, ofFinding, eq_comm]

/-- The rows by which diagnostics are read are those of the table. -/
theorem rules_match :
    List.Forall₂ (fun rule row => rule.factory = row.1 ∧ Matches rule.read row.2) rules table :=
  .cons ⟨rfl, readMismatch_matches _⟩ <| .cons ⟨rfl, readPlainMismatch_matches _⟩ <|
  .cons ⟨rfl, readPlainMismatch_matches _⟩ <| .cons ⟨rfl, readMismatch_matches _⟩ <|
  .cons ⟨rfl, readMismatch_matches _⟩ <| .cons ⟨rfl, readMismatch_matches _⟩ <|
  .cons ⟨rfl, readPlainMismatch_matches _⟩ <| .cons ⟨rfl, readMismatch_matches _⟩ <|
  .cons ⟨rfl, readCondition_matches⟩ <| .cons ⟨rfl, readThrowable_matches⟩ <|
  .cons ⟨rfl, readNullValue_matches⟩ <| .cons ⟨rfl, readUpperBound_matches⟩ <|
  .cons ⟨rfl, readIncompatible_matches _⟩ <| .cons ⟨rfl, readIncompatible_matches _⟩ <|
  .cons ⟨rfl, readVarianceConflict_matches _⟩ <| .cons ⟨rfl, readVarianceConflict_matches _⟩ <|
  .cons ⟨rfl, readNoneApplicable_matches⟩ <| .cons ⟨rfl, readInapplicable_matches⟩ <|
  .cons ⟨rfl, readAmbiguousSuper_matches⟩ <| .cons ⟨rfl, readAmbiguousOverload_matches⟩ .nil

end

/-! ## Looking a diagnostic up -/

theorem find?_lookup {rules : List Finding.Rule} {table : List (String × Entry)}
    (h : List.Forall₂ (fun rule row => rule.factory = row.1 ∧ Matches rule.read row.2) rules table)
    (name : String) :
    Option.Rel (fun rule entry => Matches rule.read entry) (rules.find? (·.factory == name))
      (table.lookup name) := by
  induction h with
  | nil => exact .none
  | @cons rule row rules table hrow _ ih =>
    obtain ⟨factory, entry⟩ := row
    obtain ⟨rfl, hmatches⟩ := hrow
    by_cases hname : rule.factory = name
    · subst hname
      simpa using hmatches
    · have hrule : (rule.factory == name) = false := by simpa using hname
      have hentry : (name == rule.factory) = false := by simpa using Ne.symm hname
      rw [List.find?_cons, hrule, List.lookup_cons, hentry]
      exact ih

section
variable (builtins : Builtins) {d : Diagnostic}

theorem classify_unlisted (h : table.lookup d.factory = none) :
    classify builtins d = .error .unrecognized := by
  have hrel := find?_lookup rules_match d.factory
  rw [h] at hrel
  unfold classify Finding.ofDiagnostic
  generalize Finding.rules.find? (·.factory == d.factory) = rule? at hrel ⊢
  cases hrel
  rfl

theorem classify_listed {entry : Entry} (h : table.lookup d.factory = some entry) :
    classify builtins d ≠ .error .unrecognized ∧
    ∀ problem, classify builtins d = .ok problem ↔ entry.Gives builtins d.payload problem := by
  have hrel := find?_lookup rules_match d.factory
  rw [h] at hrel
  unfold classify Finding.ofDiagnostic
  generalize Finding.rules.find? (·.factory == d.factory) = rule? at hrel ⊢
  cases hrel with
  | some hmatches =>
    rename_i rule
    have hgives := hmatches builtins d.payload
    dsimp only
    cases hread : rule.read d.payload with
    | none => simpa [hread, Except.map] using hgives
    | some finding => simpa [hread, Except.map] using hgives

theorem classify_eq_ok_iff {problem : Problem} :
    classify builtins d = .ok problem ↔ ∃ entry, table.lookup d.factory = some entry ∧
      entry.Gives builtins d.payload problem := by
  cases hlookup : table.lookup d.factory with
  | none => simp [classify_unlisted builtins hlookup]
  | some entry => simp [(classify_listed builtins hlookup).2]

/-- Two diagnostics of one name are classified alike if the entry of that name makes no difference
between them. -/
theorem classify_congr {d' : Diagnostic} (hfactory : d'.factory = d.factory)
    (h : ∀ entry, table.lookup d.factory = some entry → ∀ problem,
      entry.Gives builtins d'.payload problem ↔ entry.Gives builtins d.payload problem) :
    classify builtins d' = classify builtins d := by
  cases hlookup : table.lookup d.factory with
  | none =>
    rw [classify_unlisted builtins hlookup, classify_unlisted builtins (hfactory ▸ hlookup)]
  | some entry =>
    obtain ⟨hlisted, hok⟩ := classify_listed builtins hlookup
    obtain ⟨hlisted', hok'⟩ := classify_listed builtins (d := d') (hfactory ▸ hlookup)
    have hiff : ∀ problem, classify builtins d' = .ok problem ↔ classify builtins d = .ok problem :=
      fun problem => by rw [hok, hok', h entry hlookup]
    cases hd : classify builtins d with
    | ok problem => exact (hiff problem).2 hd
    | error why =>
      cases hd' : classify builtins d' with
      | ok problem => exact absurd ((hiff problem).1 hd') (by simp [hd])
      | error why' =>
        -- a listed name leaves one cause
        cases why <;> cases why' <;> simp_all

end

/-! ## The fields that matter -/

theorem Source.type?_mono {source : Source} {builtins : Builtins} {p p' : Payload}
    (h : ∀ f ∈ source.fields, ∀ v, p.get? f = some v → p'.get? f = some v) {t : Ty}
    (ht : source.type? builtins p = some t) : source.type? builtins p' = some t := by
  cases source <;> simp_all [Source.type?, Source.fields, Payload.get?]

theorem Source.type?_isSome_iff (source : Source) (builtins : Builtins) (p : Payload) :
    (∃ t, source.type? builtins p = some t) ↔ ∀ f ∈ source.fields, (p.get? f).isSome := by
  cases source <;> simp [Source.type?, Source.fields, Payload.get?, Option.isSome_iff_exists]

/-- An entry gives the same problem for every payload with the same content in its fields. -/
theorem Entry.Gives.mono {entry : Entry} {builtins : Builtins} {p p' : Payload} {problem : Problem}
    (hgives : entry.Gives builtins p problem)
    (h : ∀ f ∈ entry.required ++ entry.copied, ∀ v, p.get? f = some v → p'.get? f = some v) :
    entry.Gives builtins p' problem := by
  cases entry with
  | mismatch left right flagged =>
    obtain ⟨s, t, hs, ht, rfl⟩ := hgives
    simp only [required, copied, List.mem_append] at h
    refine ⟨s, t, left.type?_mono (fun f hf => h f (.inl (.inl hf))) hs,
      right.type?_mono (fun f hf => h f (.inl (.inr hf))) ht, ?_⟩
    cases flagged with
    | false => rfl
    | true =>
      have hflag := h .nullabilityOnly (.inr (by simp)) _ rfl
      simp [Payload.get?] at hflag
      simp [hflag]
  | incompatible =>
    obtain ⟨s, t, hs, ht, rfl⟩ := hgives
    simp [required, copied, Payload.get?] at h
    exact ⟨s, t, h.1 s hs, h.2 t ht, rfl⟩
  | variance =>
    obtain ⟨v, w, hv, hw, rfl⟩ := hgives
    simp [required, copied, Payload.get?] at h
    exact ⟨v, w, h.1 v hv, h.2 w hw, rfl⟩
  | inapplicable =>
    obtain ⟨c, hc, rfl⟩ := hgives
    simp [required, copied, Payload.get?] at h
    exact ⟨c, h c hc, rfl⟩
  | noneApplicable | ambiguousType | ambiguousCandidate =>
    simp_all [required, copied, Gives, Payload.get?]

theorem Entry.exists_gives_iff (entry : Entry) (builtins : Builtins) (p : Payload) :
    (∃ problem, entry.Gives builtins p problem) ↔ ∀ f ∈ entry.required, (p.get? f).isSome := by
  cases entry with
  | mismatch left right flagged =>
    simp only [required, List.forall_mem_append, ← left.type?_isSome_iff builtins p,
      ← right.type?_isSome_iff builtins p]
    constructor
    · rintro ⟨_, s, t, hs, ht, -⟩
      exact ⟨⟨s, hs⟩, t, ht⟩
    · rintro ⟨⟨s, hs⟩, t, ht⟩
      exact ⟨_, s, t, hs, ht, rfl⟩
  | _ => simp [required, Gives, Payload.get?, Option.isSome_iff_exists]

end Problem

/-! ## Built-in types -/

namespace Finding

theorem factory_read_one {α : Type} {x : Option α} {f : α → Finding} {name : String}
    {finding : Finding} (h : (do return f (← x) : Option Finding) = some finding)
    (hf : ∀ a, (f a).factory = name) : finding.factory = name := by
  cases x with
  | none => cases h
  | some a =>
    cases h
    exact hf a

theorem factory_read_two {α β : Type} {x : Option α} {y : Option β} {f : α → β → Finding}
    {name : String} {finding : Finding}
    (h : (do return f (← x) (← y) : Option Finding) = some finding)
    (hf : ∀ a b, (f a b).factory = name) : finding.factory = name := by
  cases x with
  | none => cases h
  | some a => exact factory_read_one h (hf a)

/-- A reading of payloads finds what diagnostics of the name say, and nothing else. -/
def ReadsOnly (read : Payload → Option Finding) (name : String) : Prop :=
  ∀ p finding, read p = some finding → finding.factory = name

theorem readMismatch_only (site : Site) : ReadsOnly (readMismatch site) site.factory :=
  fun _ _ h => factory_read_two h fun _ _ => rfl

theorem readPlainMismatch_only (site : PlainSite) :
    ReadsOnly (readPlainMismatch site) site.factory :=
  fun _ _ h => factory_read_two h fun _ _ => rfl

theorem readCondition_only : ReadsOnly readCondition "CONDITION_TYPE_MISMATCH" :=
  fun _ _ h => factory_read_one h fun _ => rfl

theorem readThrowable_only : ReadsOnly readThrowable "THROWABLE_TYPE_MISMATCH" :=
  fun _ _ h => factory_read_one h fun _ => rfl

theorem readNullValue_only : ReadsOnly readNullValue "NULL_FOR_NONNULL_TYPE" :=
  fun _ _ h => factory_read_one h fun _ => rfl

theorem readUpperBound_only : ReadsOnly readUpperBound "UPPER_BOUND_VIOLATED" :=
  fun _ _ h => factory_read_two h fun _ _ => rfl

theorem readIncompatible_only (severity : Severity) :
    ReadsOnly (readIncompatible severity) severity.factory :=
  fun _ _ h => factory_read_two h fun _ _ => rfl

theorem readVarianceConflict_only (site : VarianceSite) :
    ReadsOnly (readVarianceConflict site) site.factory :=
  fun _ _ h => factory_read_two h fun _ _ => rfl

theorem readNoneApplicable_only : ReadsOnly readNoneApplicable "NONE_APPLICABLE" := by
  rintro p _ ⟨⟩
  rfl

theorem readInapplicable_only : ReadsOnly readInapplicable "INAPPLICABLE_CANDIDATE" :=
  fun _ _ h => factory_read_one h fun _ => rfl

theorem readAmbiguousSuper_only : ReadsOnly readAmbiguousSuper "AMBIGUOUS_SUPER" := by
  rintro p _ ⟨⟩
  rfl

theorem readAmbiguousOverload_only :
    ReadsOnly readAmbiguousOverload "OVERLOAD_RESOLUTION_AMBIGUITY" := by
  rintro p _ ⟨⟩
  rfl

/-- A row reads findings of its own name only. -/
theorem factory_of_read : ∀ rule ∈ rules, ReadsOnly rule.read rule.factory := by
  simp only [rules, List.forall_mem_cons]
  exact ⟨readMismatch_only .expression, readPlainMismatch_only .flexibility,
    readPlainMismatch_only .platform, readMismatch_only .argument, readMismatch_only .initializer,
    readMismatch_only .assignment, readPlainMismatch_only .result, readMismatch_only .returnValue,
    readCondition_only, readThrowable_only, readNullValue_only, readUpperBound_only,
    readIncompatible_only .error, readIncompatible_only .warning,
    readVarianceConflict_only .written, readVarianceConflict_only .expanded,
    readNoneApplicable_only, readInapplicable_only, readAmbiguousSuper_only,
    readAmbiguousOverload_only, nofun⟩

end Finding

/-- How a diagnostic is read, by the row of its name. -/
theorem Finding.ofDiagnostic_cases (d : Diagnostic) :
    (Finding.ofDiagnostic d = .error .unrecognized ∧
      ∀ rule ∈ Finding.rules, rule.factory ≠ d.factory) ∨
    ∃ rule ∈ Finding.rules, rule.factory = d.factory ∧
      ((rule.read d.payload = none ∧ Finding.ofDiagnostic d = .error .incomplete) ∨
        ∃ finding, rule.read d.payload = some finding ∧ Finding.ofDiagnostic d = .ok finding) := by
  unfold Finding.ofDiagnostic
  cases hrule : Finding.rules.find? (·.factory == d.factory) with
  | none =>
    refine .inl ⟨rfl, fun rule hm => ?_⟩
    simpa using List.find?_eq_none.1 hrule rule hm
  | some rule =>
    refine .inr ⟨rule, List.mem_of_find?_eq_some hrule, by simpa using List.find?_some hrule, ?_⟩
    cases hread : rule.read d.payload with
    | none => exact .inl ⟨rfl, by simp only [hread]⟩
    | some finding => exact .inr ⟨finding, rfl, by simp only [hread]⟩

theorem Finding.rule_unique {rule rule' : Finding.Rule} (h : rule ∈ Finding.rules)
    (h' : rule' ∈ Finding.rules) (hname : rule.factory = rule'.factory) : rule = rule' :=
  List.inj_on_of_nodup_map Finding.rules_nodup h h' hname

theorem Finding.factory_of_ofDiagnostic {d : Diagnostic} {finding : Finding}
    (h : Finding.ofDiagnostic d = .ok finding) : finding.factory = d.factory := by
  obtain ⟨hd, -⟩ | ⟨rule, hm, hname, ⟨-, hd⟩ | ⟨finding', hread, hd⟩⟩ :=
    Finding.ofDiagnostic_cases d
  · cases hd.symm.trans h
  · cases hd.symm.trans h
  · cases hd.symm.trans h
    rw [← hname]
    exact Finding.factory_of_read rule hm _ _ hread

namespace Problem

/-- The problem with the side that diagnostics of a name imply taken from the given types. -/
def withImplied (builtins : Builtins) (factory : String) : Problem → Problem
  | .mismatch expected actual only =>
    if factory = "CONDITION_TYPE_MISMATCH" then .mismatch builtins.boolean actual only
    else if factory = "THROWABLE_TYPE_MISMATCH" then .mismatch builtins.throwable actual only
    else if factory = "NULL_FOR_NONNULL_TYPE" then .mismatch expected builtins.nullValue only
    else .mismatch expected actual only
  | problem => problem

theorem ofFinding_builtins (builtins builtins' : Builtins) (finding : Finding) :
    ofFinding builtins' finding =
      (ofFinding builtins finding).withImplied builtins' finding.factory := by
  cases finding with
  | mismatch site => cases site <;> rfl
  | plainMismatch site => cases site <;> rfl
  | _ => rfl

theorem classify_builtins (builtins builtins' : Builtins) (d : Diagnostic) :
    classify builtins' d = (classify builtins d).map (withImplied builtins' d.factory) := by
  unfold classify
  cases hd : Finding.ofDiagnostic d with
  | error why => rfl
  | ok finding =>
    have hfactory := Finding.factory_of_ofDiagnostic hd
    simp only [Except.map, ofFinding_builtins builtins builtins' finding, hfactory]

/-- **The classification is the table.** A diagnostic has the problem that the entry of its name
gives, and it has one if its name is in the table and no field is missing that the entry requires.
So ranges and all fields beside those of the entry make no difference, a field that is filled in
takes no problem away and changes none, and the built-in types are seen only in the side that a
diagnostic implies. -/
theorem classify_table (builtins : Builtins) (d : Diagnostic) :
    (∀ problem, classify builtins d = .ok problem ↔
      ∃ entry, table.lookup d.factory = some entry ∧ entry.Gives builtins d.payload problem) ∧
    ((∃ problem, classify builtins d = .ok problem) ↔
      ∃ entry, table.lookup d.factory = some entry ∧
        ∀ f ∈ entry.required, (d.payload.get? f).isSome) ∧
    (∀ d', d'.factory = d.factory →
      (∀ entry, table.lookup d.factory = some entry →
        ∀ f ∈ entry.required ++ entry.copied, d'.payload.get? f = d.payload.get? f) →
      classify builtins d' = classify builtins d) ∧
    (∀ d', d'.factory = d.factory → d.payload.FilledIn d'.payload →
      ∀ problem, classify builtins d = .ok problem → classify builtins d' = .ok problem) ∧
    ∀ builtins', classify builtins' d =
      (classify builtins d).map (withImplied builtins' d.factory) := by
  refine ⟨fun problem => classify_eq_ok_iff builtins, ?_, ?_, ?_,
    fun builtins' => classify_builtins builtins builtins' d⟩
  · simp only [classify_eq_ok_iff]
    rw [exists_comm]
    refine exists_congr fun entry => ?_
    rw [exists_and_left, entry.exists_gives_iff]
  · intro d' hfactory hfields
    refine classify_congr builtins hfactory fun entry hentry problem => ?_
    have hsame := hfields entry hentry
    exact ⟨fun h => h.mono fun f hf v hv => hsame f hf ▸ hv,
      fun h => h.mono fun f hf v hv => (hsame f hf).trans hv⟩
  · intro d' hfactory hfilled problem hproblem
    obtain ⟨entry, hentry, hgives⟩ := (classify_eq_ok_iff builtins).1 hproblem
    rw [classify_eq_ok_iff]
    exact ⟨entry, hfactory ▸ hentry, hgives.mono fun f _ => hfilled f⟩

/-- A condition that is a number: the flag is copied, the expected type is not looked at. -/
theorem classify_table_condition :
    let payload := (Payload.empty.withActual (.simple "kotlin.Int")).withNullabilityOnly true
    let d : Diagnostic := ⟨"CONDITION_TYPE_MISMATCH", payload, [⟨3, 7⟩]⟩
    let d' : Diagnostic := ⟨"CONDITION_TYPE_MISMATCH", payload.withExpected (.simple "A"), []⟩
    payload.FilledIn (payload.withExpected (.simple "A")) ∧
    classify .standard d = .ok (.mismatch (.simple "kotlin.Boolean") (.simple "kotlin.Int") true) ∧
    classify .standard d' = .ok (.mismatch (.simple "kotlin.Boolean") (.simple "kotlin.Int") true) ∧
    classify .standard d' = classify .standard d := by
  intro payload d d'
  have hfilled : payload.FilledIn (payload.withExpected (.simple "A")) := by
    intro f v hv
    cases f with
    | expected => cases hv
    | _ => exact hv
  have hproblem : classify .standard d =
      .ok (.mismatch (.simple "kotlin.Boolean") (.simple "kotlin.Int") true) := rfl
  obtain ⟨-, -, hother, hfill, -⟩ := classify_table .standard d
  refine ⟨hfilled, hproblem, hfill d' rfl hfilled _ hproblem, hother d' rfl ?_⟩
  intro entry hentry f hf
  obtain rfl : Entry.mismatch .boolean .actual true = entry := Option.some.inj hentry
  simp only [Entry.required, Entry.copied, Source.fields, List.nil_append, List.cons_append,
    if_true, List.mem_cons, List.not_mem_nil, or_false] at hf
  obtain rfl | rfl := hf <;> rfl

end Problem

end Inlay
