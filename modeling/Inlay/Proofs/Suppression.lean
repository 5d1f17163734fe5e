import Inlay.Proofs.TableSpec

/-!
# When a call is explained

A call has a table or is suppressed as a whole. `Overload.analyze_explains_iff` says which: all
candidates of the best rank can be explained, there is one, and there are no more of them than can
be told apart.

The analysis looks up a label for every candidate, takes the rows from the first candidate, and
pairs the candidates with their labels. None of these steps can fail or lose a candidate, because a
call with more candidates than labels is suppressed before.
-/

namespace Inlay

theorem Candidate.explainable?_isSome_iff (c : Candidate) :
    c.explainable?.isSome = true ↔ c.optionalParameters = false ∧ c.bindings.isSome = true := by
  unfold Candidate.explainable?
  cases c.optionalParameters <;> simp

namespace Overload

/-! ## Counting -/

theorem suppression?_eq_none_iff {config : Config} {explainable best : Nat} :
    suppression? config explainable best = none ↔
      0 < explainable ∧ explainable ≤ config.effectiveBound ∧ best ≤ explainable := by
  refine ⟨suppression?_eq_none, fun ⟨hpos, hbound, hbest⟩ => ?_⟩
  unfold suppression?
  rw [if_neg (by omega), if_neg (by omega), if_neg (by omega)]

theorem suppression?_ne_unlabeled (config : Config) (explainable best : Nat) :
    suppression? config explainable best ≠ some .unlabeled := by
  unfold suppression?
  split_ifs <;> simp

theorem analyze_ne_unlabeled (config : Config) (candidates : List Candidate) :
    analyze config candidates ≠ .error .unlabeled := by
  rw [analyze_eq]
  cases hwhy : suppression? config (columns candidates).length (best candidates).length with
  | none => rintro ⟨⟩
  | some why =>
    rintro ⟨⟩
    exact suppression?_ne_unlabeled _ _ _ hwhy

theorem analyze_isOk_iff (config : Config) (candidates : List Candidate) :
    (∃ reports, analyze config candidates = .ok reports) ↔
      suppression? config (columns candidates).length (best candidates).length = none := by
  rw [analyze_eq]
  cases suppression? config (columns candidates).length (best candidates).length <;> simp

theorem length_columns_le (candidates : List Candidate) :
    (columns candidates).length ≤ (best candidates).length :=
  List.length_filterMap_le _ _

/-- No candidate of the best rank is left out if and only if all of them can be explained. -/
theorem length_best_le_iff (candidates : List Candidate) :
    (best candidates).length ≤ (columns candidates).length ↔
      ∀ c ∈ candidates, c.bestRanked = true → c.explainable?.isSome = true := by
  have hle := length_columns_le candidates
  have hcount : (columns candidates).length =
      (best candidates).countP fun c => c.explainable?.isSome := List.length_filterMap_eq_countP
  have heq : (best candidates).length ≤ (columns candidates).length ↔
      (best candidates).countP (fun c => c.explainable?.isSome) = (best candidates).length := by
    omega
  rw [heq, List.countP_eq_length]
  simp only [best, List.mem_filter, and_imp]

theorem length_best (candidates : List Candidate) :
    (best candidates).length = candidates.countP (·.bestRanked) :=
  List.countP_eq_length_filter.symm

/-! ## The labels of a table -/

theorem exists_verdict_iff {labels : List String} {columns : List (List Binding)}
    (hlen : columns.length ≤ labels.length) {a : Argument} {k : Nat} :
    (∃ v ∈ verdicts labels columns a, v.index = k) ↔ ∃ p, Takes columns a k p := by
  constructor
  · rintro ⟨v, hv, rfl⟩
    obtain ⟨p, hp, -, -⟩ := mem_verdicts.1 hv
    exact ⟨p, hp⟩
  · rintro ⟨p, hp⟩
    exact ⟨_, verdicts_listed hlen hp, rfl⟩

/-- The table of a call is made with one label for each candidate. -/
theorem exists_labels_of_ok {config : Config} {candidates : List Candidate}
    {reports : List Report} (h : analyze config candidates = .ok reports) :
    ∃ first rest labels, columns candidates = first :: rest ∧
      labels? config (columns candidates).length = some labels ∧
      labels.length = (columns candidates).length ∧
      reports = first.filterMap fun b => report? labels (columns candidates) b.argument := by
  obtain ⟨first, rest, hcols, hbound, -, hreports⟩ := analyze_ok h
  have hlen : (columns candidates).length ≤ config.labels.length :=
    Nat.le_trans hbound config.effectiveBound_le_length
  refine ⟨first, rest, _, hcols, labels?_eq hlen, List.length_take_of_le hlen, ?_⟩
  simp only [report?_take, hreports]

/-- **When a call is explained.** A call has a table if and only if some candidate has the best
rank, all that have it take no optional parameters and have their arguments bound, and they are no
more than the bound allows. Nothing else can keep a call from being explained: no label is missing,
there is a first candidate, and no candidate is lost when it is paired with its label. -/
theorem analyze_explains_iff (config : Config) (candidates : List Candidate) :
    ((∃ reports, analyze config candidates = .ok reports) ↔
      (∃ c ∈ candidates, c.bestRanked = true) ∧
      (∀ c ∈ candidates, c.bestRanked = true →
        c.optionalParameters = false ∧ c.bindings.isSome = true) ∧
      candidates.countP (·.bestRanked) ≤ config.effectiveBound) ∧
    analyze config candidates ≠ .error .unlabeled ∧
    ∀ reports, analyze config candidates = .ok reports →
      ∃ first rest labels, columns candidates = first :: rest ∧
        labels? config (columns candidates).length = some labels ∧
        labels.length = (columns candidates).length ∧
        reports = first.filterMap (fun b => report? labels (columns candidates) b.argument) ∧
        ∀ a k, (∃ v ∈ verdicts labels (columns candidates) a, v.index = k) ↔
          ∃ p, Takes (columns candidates) a k p := by
  refine ⟨?_, analyze_ne_unlabeled config candidates, fun reports h => ?_⟩
  · rw [analyze_isOk_iff, suppression?_eq_none_iff, length_best_le_iff]
    have hle := length_columns_le candidates
    have hbest := length_best_le_iff candidates
    have hcount := length_best candidates
    have hpos : 0 < candidates.countP (·.bestRanked) ↔ ∃ c ∈ candidates, c.bestRanked = true :=
      List.countP_pos_iff
    simp only [← Candidate.explainable?_isSome_iff, ← hpos, ← hbest]
    omega
  · obtain ⟨first, rest, labels, hcols, hlabels, hlen, hreports⟩ := exists_labels_of_ok h
    exact ⟨first, rest, labels, hcols, hlabels, hlen, hreports,
      fun a k => exists_verdict_iff (Nat.le_of_eq hlen.symm)⟩

/-- The candidate that does not take the list keeps its label for the other argument. -/
theorem analyze_explains_iff_twiceBound :
    (∃ c ∈ twiceBound, c.bestRanked = true) ∧ ∃ labels, labels? .standard 2 = some labels ∧
      (∃ v ∈ verdicts labels (columns twiceBound) unknownArgument, v.index = 1) ∧
      ¬ ∃ v ∈ verdicts labels (columns twiceBound) listArgument, v.index = 1 := by
  obtain ⟨hiff, -, htable⟩ := analyze_explains_iff .standard twiceBound
  obtain ⟨first, rest, labels, -, hlabels, -, -, hverdicts⟩ := htable twiceBoundTable rfl
  refine ⟨(hiff.1 ⟨twiceBoundTable, rfl⟩).1, labels, hlabels, ?_, ?_⟩
  · exact (hverdicts _ _).2 ⟨_, _, rfl, Binding.parameter?_eq_some_iff.1 rfl⟩
  · rw [hverdicts]
    rintro ⟨p, bindings, hbindings, hp⟩
    cases hbindings
    cases Binding.parameter?_eq_some_iff.2 hp

end Overload

end Inlay
