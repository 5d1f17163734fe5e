import Inlay.Proofs.HintText

/-!
# What the hints of a call show

The hints of a call show types under one form per row of its table. This form is chosen so that a
type that is turned down never reads like the type that is expected
(`Overload.rejected_shown_apart`), whatever the names of the types look like.

A call with one candidate and one argument is a mismatch of two types like any other, and
`Overload.hints_single` says that it is shown with the same texts as such a mismatch.
-/

namespace Inlay

namespace Overload

/-! ## Rejections -/

theorem Row.rejected_ne {config : Config} {columns : List (List Binding)} {a : Argument}
    {r : Report} (h : Row config columns a r) {v : LabeledVerdict} (hv : v ∈ r.verdicts)
    {expected : Ty} (hexpected : v.verdict = .rejected expected) :
    expected.render r.form ≠ a.shown r.form := by
  intro heq
  cases hform : r.form with
  | short =>
    -- a rejection with the same short text would have made the row qualified
    rw [hform] at heq
    have hqualified : r.form = .qualified := h.form.2 ⟨v, hv, expected, hexpected, heq⟩
    rw [hform] at hqualified
    cases hqualified
  | qualified =>
    rw [hform] at heq
    obtain ⟨p, -, -, hverdict⟩ := (h.verdicts v).1 hv
    by_cases he : p.type.render .qualified = a.shown .qualified
    · rw [hexpected, if_pos he] at hverdict
      cases hverdict
    · rw [hexpected, if_neg he, Verdict.rejected.injEq] at hverdict
      rw [hverdict] at heq
      exact he heq

theorem row_of_mem {config : Config} {candidates : List Candidate} {reports : List Report}
    (h : analyze config candidates = .ok reports) {r : Report} (hr : r ∈ reports) :
    Row config (columns candidates) r.argument r :=
  (turnedDown_row_of_mem h hr).2

/-- **A rejection is told apart from the argument.** The hints of a call show the rows of its table,
and where a candidate turns an argument down, the type it expects reads otherwise than the type of
the argument. -/
theorem rejected_shown_apart {config : Config} {candidates : List Candidate}
    {reports : List Report} (h : analyze config candidates = .ok reports) :
    (hints config candidates).map Hint.text = reports.flatMap (fun r =>
      (": " ++ r.argument.shown r.form) :: r.verdicts.map (·.shown r.form)) ∧
    ∀ r ∈ reports, ∀ v ∈ r.verdicts, ∀ expected, v.verdict = .rejected expected →
      v.shown r.form = "⟦" ++ v.label ++ "⟧" ++ " ⇏ " ++ expected.render r.form ∧
      expected.render r.form ≠ r.argument.shown r.form := by
  refine ⟨?_, fun r hr v hv expected hexpected => ?_⟩
  · rw [hints, h]
    dsimp only
    rw [List.map_flatMap]
    exact List.flatMap_congr fun r _ => r.map_text_hints
  · exact ⟨v.shown_rejected hexpected r.form, (row_of_mem h hr).rejected_ne hv hexpected⟩

/-- Lists of two packages are told apart, and an unknown type from a known one. -/
theorem rejected_shown_apart_twiceBound :
    analyze .standard twiceBound = .ok twiceBoundTable ∧
    ∀ r ∈ twiceBoundTable, ∀ v ∈ r.verdicts, ∀ expected, v.verdict = .rejected expected →
      expected.render r.form ≠ r.argument.shown r.form := by
  have htable : analyze .standard twiceBound = .ok twiceBoundTable := rfl
  refine ⟨htable, fun r hr v hv expected hexpected => ?_⟩
  exact ((rejected_shown_apart htable).2 r hr v hv expected hexpected).2

/-! ## One candidate -/

theorem analyze_singleton (config : Config) (symbol : Symbol) (b : Binding) :
    analyze config [.ofBindings symbol [b]] =
      .ok (report? config.labels [[b]] b.argument).toList := by
  have hbound : ¬ config.effectiveBound < 1 := Nat.not_lt.2 config.effectiveBound_pos
  have hcolumns : columns [.ofBindings symbol [b]] = [[b]] := rfl
  have hbest : (best [.ofBindings symbol [b]]).length = 1 := rfl
  have hnone : suppression? config 1 1 = none := by simp [suppression?, hbound]
  rw [analyze_eq, hcolumns, hbest, List.length_singleton, hnone]
  cases hr : report? config.labels [[b]] b.argument <;> simp [rowArguments, hr]

/-- The row of the only argument of the only candidate: its form is that of the pair of types. -/
theorem report?_singleton (label : String) (labels : List String) (a : Argument) (p : Parameter) :
    report? (label :: labels) [[⟨a, p⟩]] a =
      if NameMatch.of a.names p.type.names = .exact then none
      else some ⟨a, Names.pairForm a.names p.type.names, [⟨0, label, .rejected p.type⟩]⟩ := by
  have hverdicts : verdicts (label :: labels) [[⟨a, p⟩]] a =
      [⟨0, label, .of a.names p.type⟩] := by
    simp [verdicts, Binding.parameter?]
  unfold report?
  rw [hverdicts]
  by_cases hexact : NameMatch.of a.names p.type.names = .exact
  · simp [Verdict.of, hexact, Verdict.isRejected]
  · simp [Verdict.of, hexact, Verdict.isRejected, Verdict.isConfusing, Names.clash,
      Names.pairForm, NameMatch.form]

theorem hints_singleton {config : Config} {label : String} {labels : List String}
    (hlabels : config.labels = label :: labels) (symbol : Symbol) (a : Argument) (p : Parameter) :
    hints config [.ofBindings symbol [⟨a, p⟩]] =
      if NameMatch.of a.names p.type.names = .exact then []
      else
        Report.hints ⟨a, Names.pairForm a.names p.type.names, [⟨0, label, .rejected p.type⟩]⟩ := by
  rw [hints, analyze_singleton, hlabels, report?_singleton]
  by_cases hexact : NameMatch.of a.names p.type.names = .exact
  · simp [hexact]
  · simp [hexact]

/-- The two hints of a row with one rejection. -/
theorem hints_rejected (a : Argument) (form : NameForm) (label : String) (expected : Ty) :
    ∃ own verdict : Hint,
      Report.hints ⟨a, form, [⟨0, label, .rejected expected⟩]⟩ = [own, verdict] ∧
      (own.side = .after ∧ own.offset = a.span.stop ∧ own.text = ": " ++ a.shown form) ∧
      (verdict.side = .after ∧ verdict.offset = a.span.stop ∧
        verdict.text = "⟦" ++ label ++ "⟧" ++ " ⇏ " ++ expected.render form) := by
  have htexts := Report.map_text_hints ⟨a, form, [⟨0, label, .rejected expected⟩]⟩
  simp only [Report.hints, List.map_cons, List.map_nil, List.cons.injEq, and_true] at htexts
  obtain ⟨hown, hverdict⟩ := htexts
  rw [LabeledVerdict.shown_rejected rfl] at hverdict
  exact ⟨_, _, rfl, ⟨rfl, rfl, hown⟩, rfl, rfl, hverdict⟩

/-- The hint of a mismatch at one range, where no declared type is known. -/
theorem hint_mismatch (span : Span) {actual expected : Ty} (hne : actual ≠ expected) :
    ∃ mismatch : Hint,
      Problem.hint (m := Id) (pure none) [span] (.mismatch expected actual false) =
        some mismatch ∧
      mismatch.side = .after ∧ mismatch.offset = span.stop ∧
      mismatch.text = ": " ++ actual.render (Names.pairForm actual.names expected.names) ++
        " ⇏ " ++ expected.render (Names.pairForm actual.names expected.names) := by
  have hsome : Hint.comparison [span] actual Hint.doesNotConform expected =
      some (.after span.stop _) := Hint.comparison_eq_some_iff.2 ⟨hne, span.stop, rfl, rfl⟩
  exact ⟨_, hsome, rfl, rfl, Hint.text_comparison hsome⟩

/-- **A call with one candidate is shown like a mismatch.** It has no hints if the types agree by
their qualified texts. Otherwise it has two, behind the argument, and their texts are those of the
mismatch of the two types, divided by the label of the candidate: both show the types in the same
form. -/
theorem hints_single (config : Config) (symbol : Symbol) (id : ArgumentId) (span : Span)
    (actual expected : Ty) (name : String) :
    let hints := Overload.hints config
      [.ofBindings symbol [⟨⟨id, span, some actual⟩, ⟨name, expected⟩⟩]]
    (hints = [] ↔ actual.render .qualified = expected.render .qualified) ∧
    (actual.render .qualified ≠ expected.render .qualified →
      ∃ (form : NameForm) (label : String) (own verdict mismatch : Hint),
        config.label? 0 = some label ∧ hints = [own, verdict] ∧
        (own.side = .after ∧ own.offset = span.stop ∧
          own.text = ": " ++ actual.render form) ∧
        (verdict.side = .after ∧ verdict.offset = span.stop ∧
          verdict.text = "⟦" ++ label ++ "⟧" ++ " ⇏ " ++ expected.render form) ∧
        Problem.hint (m := Id) (pure none) [span] (.mismatch expected actual false) =
          some mismatch ∧
        mismatch.side = .after ∧ mismatch.offset = span.stop ∧
        mismatch.text = ": " ++ actual.render form ++ " ⇏ " ++ expected.render form) := by
  obtain ⟨label, labels, hlabels⟩ := List.exists_cons_of_ne_nil config.labels_ne_nil
  have hexact : NameMatch.of actual.names expected.names = .exact ↔
      actual.render .qualified = expected.render .qualified := NameMatch.of_eq_exact_iff
  have hhints := hints_singleton hlabels symbol ⟨id, span, some actual⟩ ⟨name, expected⟩
  simp only [show Argument.names ⟨id, span, some actual⟩ = actual.names from rfl, hexact] at hhints
  obtain ⟨own, verdict, hrow, hown, hverdict⟩ := hints_rejected ⟨id, span, some actual⟩
    (Names.pairForm actual.names expected.names) label expected
  rw [hrow] at hhints
  intro hints
  refine ⟨?_, fun hne => ?_⟩
  · show Overload.hints _ _ = [] ↔ _
    rw [hhints]
    split
    · rename_i heq
      exact iff_of_true rfl heq
    · rename_i hne
      exact iff_of_false (List.cons_ne_nil _ _) hne
  · rw [if_neg hne] at hhints
    have htypes : actual ≠ expected := fun he => hne (by rw [he])
    have hlabel : config.label? 0 = some label := by rw [Config.label?, hlabels]; rfl
    obtain ⟨mismatch, hmismatch⟩ := hint_mismatch span htypes
    exact ⟨_, label, own, verdict, mismatch, hlabel, hhints, hown, hverdict, hmismatch⟩

theorem hints_single_lists :
    (Ty.simple "kotlin.List").render .qualified ≠ (Ty.simple "java.List").render .qualified ∧
    ∃ (form : NameForm) (own verdict : Hint),
      Overload.hints .standard
        [.ofBindings ⟨"f"⟩ [⟨listArgument, ⟨"xs", .simple "java.List"⟩⟩]] = [own, verdict] ∧
      own.text = ": " ++ (Ty.simple "kotlin.List").render form ∧
      verdict.text = "⟦𝟙⟧ ⇏ " ++ (Ty.simple "java.List").render form := by
  have hne : (Ty.simple "kotlin.List").render .qualified ≠
      (Ty.simple "java.List").render .qualified := by decide
  obtain ⟨form, label, own, verdict, -, hlabel, hhints, hown, hverdict, -⟩ :=
    (hints_single .standard ⟨"f"⟩ ⟨0⟩ ⟨4, 6⟩ (.simple "kotlin.List") (.simple "java.List") "xs").2
      hne
  obtain rfl : "𝟙" = label := Option.some.inj hlabel
  exact ⟨hne, form, own, verdict, hhints, hown.2.2, hverdict.2.2⟩

end Overload

end Inlay
