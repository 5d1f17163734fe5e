import Inlay.Proofs.CandidateChange
import Inlay.Proofs.ConfigCheck
import Inlay.Proofs.Suppression

/-!
# The table of a call under other limits

The configuration decides how many candidates may be explained and under which labels. All else in
the table of a call comes from the candidates, so a call that has a table under one configuration
has the same table under every one that allows as many candidates, but for the labels.

* `Overload.Row.relabel`: a row with the labels of another configuration is the row of that
  configuration. Rows are unique, so this carries over to the rows that are computed
  (`Overload.report?_relabel`) and to tables (`Overload.analyze_relabel`).
* `Overload.Row.labels_nodup`, `Overload.Row.exists_rejected`: what holds of every row.
* `Overload.analyze_relabeled`: the two put together.
-/

namespace Inlay

/-- The verdict under the label of its candidate in the configuration. -/
def LabeledVerdict.relabel (config : Config) (v : LabeledVerdict) : LabeledVerdict :=
  { v with label := (config.label? v.index).getD v.label }

/-- The row under the labels of the configuration. -/
def Report.relabel (config : Config) (r : Report) : Report :=
  { r with verdicts := r.verdicts.map (·.relabel config) }

namespace Overload

section
variable {config config' : Config} {columns : List (List Binding)} {a : Argument} {r : Report}

theorem Takes.exists_label? {k : Nat} {p : Parameter} (h : Takes columns a k p)
    (hlen : columns.length ≤ config.labels.length) : ∃ label, config.label? k = some label := by
  obtain ⟨bindings, hk, -⟩ := h
  exact exists_label?_of_column hlen hk

theorem Row.label?_eq (hrow : Row config columns a r) {v : LabeledVerdict} (hv : v ∈ r.verdicts) :
    config.label? v.index = some v.label := by
  obtain ⟨-, -, hlabel, -⟩ := (hrow.verdicts v).1 hv
  exact hlabel

theorem Row.exists_label? (hrow : Row config columns a r)
    (hlen : columns.length ≤ config'.labels.length) {v : LabeledVerdict} (hv : v ∈ r.verdicts) :
    ∃ label, config'.label? v.index = some label := by
  obtain ⟨p, htakes, -⟩ := (hrow.verdicts v).1 hv
  exact htakes.exists_label? hlen

theorem Row.mem_relabel (hrow : Row config columns a r)
    (hlen : columns.length ≤ config.labels.length)
    (hlen' : columns.length ≤ config'.labels.length) (v : LabeledVerdict) :
    v ∈ (r.relabel config').verdicts ↔ VerdictOn config' columns a v := by
  unfold Report.relabel
  rw [List.mem_map]
  refine ⟨fun h => ?_, fun h => ?_⟩
  · obtain ⟨v, hv, rfl⟩ := h
    obtain ⟨label, hlabel⟩ := hrow.exists_label? hlen' hv
    obtain ⟨p, htakes, -, hverdict⟩ := (hrow.verdicts v).1 hv
    refine ⟨p, htakes, ?_, hverdict⟩
    simp [LabeledVerdict.relabel, hlabel]
  · -- the same verdict stands in `r`, under the label of `config`
    obtain ⟨p, htakes, hlabel', hverdict⟩ := h
    obtain ⟨label, hlabel⟩ := htakes.exists_label? hlen
    refine ⟨⟨v.index, label, v.verdict⟩, (hrow.verdicts _).2 ⟨p, htakes, hlabel, hverdict⟩, ?_⟩
    simp [LabeledVerdict.relabel, hlabel']

theorem Row.relabel (hrow : Row config columns a r) (hlen : columns.length ≤ config.labels.length)
    (hlen' : columns.length ≤ config'.labels.length) :
    Row config' columns a (r.relabel config') := by
  refine ⟨hrow.argument, ?_, fun k p htakes => ?_, hrow.mem_relabel hlen hlen', ?_⟩
  · exact List.pairwise_map.2 hrow.increasing
  · obtain ⟨v, hv, hindex⟩ := hrow.listed k p htakes
    exact ⟨v.relabel config', List.mem_map_of_mem hv, hindex⟩
  · exact hrow.form.trans (by simp [Report.relabel, LabeledVerdict.relabel])

theorem report?_relabel (hlen : columns.length ≤ config.labels.length)
    (hlen' : columns.length ≤ config'.labels.length) (a : Argument) :
    report? config'.labels columns a =
      (report? config.labels columns a).map (Report.relabel config') := by
  cases hr : report? config.labels columns a with
  | none =>
    cases hr' : report? config'.labels columns a with
    | none => rfl
    | some r' => exact absurd (report?_row hlen' hr').1 (report?_none hlen hr)
  | some r =>
    obtain ⟨hdown, hrow⟩ := report?_row hlen hr
    cases hr' : report? config'.labels columns a with
    | none => exact absurd hdown (report?_none hlen' hr')
    | some r' =>
      rw [(report?_row hlen' hr').2.unique (hrow.relabel hlen hlen')]
      rfl

theorem Row.labels_nodup (hrow : Row config columns a r) :
    (r.verdicts.map (·.label)).Nodup := by
  rw [List.Nodup, List.pairwise_map]
  refine hrow.increasing.imp_of_mem fun {v w} hv hw hlt heq => ?_
  have hlabel := hrow.label?_eq hv
  rw [heq] at hlabel
  have := Config.label?_inj hlabel (hrow.label?_eq hw)
  omega

theorem Row.exists_rejected (hrow : Row config columns a r)
    (hlen : columns.length ≤ config.labels.length) (hdown : TurnedDown columns a) :
    ∃ v ∈ r.verdicts, ∃ expected, v.verdict = .rejected expected := by
  obtain ⟨k, p, htakes, hne⟩ := hdown
  obtain ⟨label, hlabel⟩ := htakes.exists_label? hlen
  refine ⟨⟨k, label, .rejected p.type⟩, (hrow.verdicts _).2 ⟨p, htakes, hlabel, ?_⟩, p.type, rfl⟩
  rw [if_neg hne]

end

/-! ## Tables -/

theorem analyze_relabel {config config' : Config} {cs : List Candidate} {rs : List Report}
    (hle : config.effectiveBound ≤ config'.effectiveBound) (h : analyze config cs = .ok rs) :
    analyze config' cs = .ok (rs.map (Report.relabel config')) := by
  have hnone := (analyze_isOk_iff config cs).1 ⟨rs, h⟩
  obtain ⟨hpos, hbound, hbest⟩ := suppression?_eq_none hnone
  have hbound' := Nat.le_trans hbound hle
  have hlen := Nat.le_trans hbound config.effectiveBound_le_length
  have hlen' := Nat.le_trans hbound' config'.effectiveBound_le_length
  rw [analyze_eq, hnone] at h
  rw [analyze_eq, suppression?_eq_none_iff.2 ⟨hpos, hbound', hbest⟩,
    funext (report?_relabel hlen hlen'), ← List.map_filterMap, Except.ok.inj h]

/-- The same verdict under the label of each of the two configurations. -/
structure VerdictRelabeled (config config' : Config) (v w : LabeledVerdict) : Prop where
  index : w.index = v.index
  verdict : w.verdict = v.verdict
  label : config.label? v.index = some v.label
  label' : config'.label? v.index = some w.label

/-- The same row under the labels of each of the two configurations. -/
structure Relabeled (config config' : Config) (r s : Report) : Prop where
  argument : s.argument = r.argument
  form : s.form = r.form
  verdicts : List.Forall₂ (VerdictRelabeled config config') r.verdicts s.verdicts

theorem Row.relabeled {config config' : Config} {columns : List (List Binding)} {a : Argument}
    {r : Report} (hrow : Row config columns a r)
    (hlen' : columns.length ≤ config'.labels.length) :
    Relabeled config config' r (r.relabel config') := by
  refine ⟨rfl, rfl, ?_⟩
  unfold Report.relabel
  rw [List.forall₂_map_right_iff, List.forall₂_same]
  intro v hv
  obtain ⟨label, hlabel⟩ := hrow.exists_label? hlen' hv
  refine ⟨rfl, rfl, hrow.label?_eq hv, ?_⟩
  simp [LabeledVerdict.relabel, hlabel]

/-- **Raising the limits loses no explanation.** A call that has a table under one configuration has
a table under every configuration that lets as many candidates be explained. The rows are the same,
and so are their verdicts, but for the labels, which are those of either configuration. In every row
the candidates stand in increasing order under labels of their own, and some candidate turns the
argument down. -/
theorem analyze_relabeled {config config' : Config} {cs : List Candidate} {rs : List Report}
    (hle : config.effectiveBound ≤ config'.effectiveBound) (h : analyze config cs = .ok rs) :
    (∃ rs', analyze config' cs = .ok rs' ∧ List.Forall₂ (Relabeled config config') rs rs') ∧
    ∀ r ∈ rs, (r.verdicts.Pairwise fun v w => v.index < w.index) ∧
      (r.verdicts.map (·.label)).Nodup ∧
      ∃ v ∈ r.verdicts, ∃ expected, v.verdict = .rejected expected := by
  obtain ⟨first, rest, -, hbound, -, -⟩ := analyze_ok h
  have hlen := Nat.le_trans hbound config.effectiveBound_le_length
  have hlen' := Nat.le_trans (Nat.le_trans hbound hle) config'.effectiveBound_le_length
  refine ⟨⟨_, analyze_relabel hle h, ?_⟩, fun r hr => ?_⟩
  · rw [List.forall₂_map_right_iff, List.forall₂_same]
    intro r hr
    exact (turnedDown_row_of_mem h hr).2.relabeled hlen'
  · obtain ⟨hdown, hrow⟩ := turnedDown_row_of_mem h hr
    exact ⟨hrow.increasing, hrow.labels_nodup, hrow.exists_rejected hlen hdown⟩

/-- Letters for up to three candidates. -/
def lettered : Config := ⟨3, ["a", "b", "c"], by decide, by decide, by decide⟩

/-- A call of which the second candidate does not take the list. -/
def gappedCall : List Candidate :=
  [.ofBindings ⟨"f"⟩ [⟨listArgument, ⟨"xs", .simple "java.List"⟩⟩], .ofBindings ⟨"g"⟩ [],
    .ofBindings ⟨"h"⟩ [⟨listArgument, ⟨"xs", .simple "kotlin.List"⟩⟩]]

def gappedTable (first third : String) : List Report :=
  [⟨listArgument, .qualified, [⟨0, first, .rejected (.simple "java.List")⟩, ⟨2, third, .accepted⟩]⟩]

theorem analyze_relabeled_gappedCall :
    lettered.effectiveBound ≤ Config.standard.effectiveBound ∧
    analyze lettered gappedCall = .ok (gappedTable "a" "c") ∧
    List.Forall₂ (Relabeled lettered .standard) (gappedTable "a" "c") (gappedTable "𝟙" "𝟛") := by
  have hle : lettered.effectiveBound ≤ Config.standard.effectiveBound := by decide
  have htable : analyze lettered gappedCall = .ok (gappedTable "a" "c") := rfl
  obtain ⟨⟨rs, hrs, hrelabeled⟩, -⟩ := analyze_relabeled hle htable
  have htable' : analyze .standard gappedCall = .ok (gappedTable "𝟙" "𝟛") := rfl
  cases hrs.symm.trans htable'
  exact ⟨hle, htable, hrelabeled⟩

end Overload

end Inlay
