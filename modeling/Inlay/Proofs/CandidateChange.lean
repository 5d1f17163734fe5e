import Inlay.Overload.Hint
import Inlay.Proofs.TableSpec
import Mathlib.Data.List.Forall2

/-!
# How the table of a call changes with its candidates

Two calls are compared here.

* `Overload.analyze_alike`: the table and the hints of a call show nothing of its candidates but
  what `Candidate.Alike` compares, and the arguments as the first candidate of the best rank records
  them. Alike candidates give columns with the same expectations (`columns_alike`), and verdicts are
  made of those (`verdicts_congr`).
* `Overload.analyze_rearranged`: if the candidates of the best rank bind the same arguments, another
  order of the candidates gives the same rows, in which each candidate keeps its verdict
  (`Overload.Rearranged`). A row is known by its description (`Row`), and all that depends on the
  order there are positions.
-/

namespace Inlay

/-! ## What the table sees of a candidate -/

/-- The type that is expected of an argument. -/
def Binding.expectation (b : Binding) : ArgumentId × Ty := (b.argument.id, b.parameter.type)

namespace Candidate

/-- Two candidates that expect the same of the same arguments, in the same order. They may stand for
different symbols, name their parameters differently, and record other spans and types with the
arguments. -/
structure Alike (c c' : Candidate) : Prop where
  optionalParameters : c.optionalParameters = c'.optionalParameters
  expectations : c.bindings.map (·.map Binding.expectation) =
    c'.bindings.map (·.map Binding.expectation)

/-- The arguments as a candidate records them. -/
def arguments? (c : Candidate) : Option (List Argument) := c.bindings.map (·.map (·.argument))

theorem Alike.explainable? {c c' : Candidate} (h : Alike c c') :
    c.explainable?.map (·.map Binding.expectation) =
      c'.explainable?.map (·.map Binding.expectation) := by
  unfold Candidate.explainable?
  rw [h.optionalParameters]
  split
  · rfl
  · exact h.expectations

end Candidate

theorem Binding.map_type_parameter? (bindings : List Binding) (id : ArgumentId) :
    (Binding.parameter? bindings id).map (·.type) =
      ((bindings.map Binding.expectation).findRev? (·.1 == id)).map (·.2) := by
  unfold Binding.parameter?
  rw [List.findRev?_eq_find?_reverse, List.findRev?_eq_find?_reverse, ← List.map_reverse,
    List.find?_map, Option.map_map, Option.map_map]
  rfl

namespace Overload

theorem columns_alike {cs cs' : List Candidate} (h : List.Forall₂ Candidate.Alike cs cs') :
    (cs.filterMap Candidate.explainable?).map (·.map Binding.expectation) =
      (cs'.filterMap Candidate.explainable?).map (·.map Binding.expectation) := by
  rw [List.map_filterMap, List.map_filterMap]
  induction h with
  | nil => rfl
  | cons hc _ ih => rw [List.filterMap_cons, List.filterMap_cons, hc.explainable?, ih]

section
variable {columns columns' : List (List Binding)}
  (h : columns.map (·.map Binding.expectation) = columns'.map (·.map Binding.expectation))
include h

theorem verdicts_congr (labels : List String) (a : Argument) :
    verdicts labels columns a = verdicts labels columns' a := by
  -- a verdict looks at the expectations of its column only
  have hverdicts : ∀ cols : List (List Binding), verdicts labels cols a =
      ((cols.map (·.map Binding.expectation)).zip labels).zipIdx.filterMap fun x =>
        (x.1.1.findRev? (·.1 == a.id)).map fun e => ⟨x.2, x.1.2, .of a.names e.2⟩ := by
    intro cols
    unfold verdicts
    rw [List.zip_map_left, List.zipIdx_map, List.filterMap_map]
    refine List.filterMap_congr fun ⟨⟨bindings, label⟩, k⟩ _ => ?_
    have htype := congrArg (Option.map fun t => (⟨k, label, .of a.names t⟩ : LabeledVerdict))
      (Binding.map_type_parameter? bindings a.id)
    rw [Option.map_map, Option.map_map] at htype
    exact htype
  rw [hverdicts, hverdicts, h]

theorem report?_congr (labels : List String) (a : Argument) :
    report? labels columns a = report? labels columns' a := by
  unfold report?
  rw [verdicts_congr h]

end

/-- The rows follow the first candidate of the best rank, if none of them is left out. -/
theorem rowArguments_columns {cs : List Candidate} (h : (best cs).length ≤ (columns cs).length) :
    rowArguments (columns cs) = ((best cs).head?.bind Candidate.arguments?).getD [] := by
  have hbindings : (best cs).map (·.bindings) = (columns cs).map some := map_bindings_best _ h
  unfold rowArguments Candidate.arguments?
  cases hb : best cs with
  | nil =>
    have hcolumns : columns cs = [] := by rw [columns, hb]; rfl
    rw [hcolumns]
    rfl
  | cons c rest =>
    cases hc : columns cs with
    | nil =>
      rw [hb, hc] at hbindings
      cases hbindings
    | cons first others =>
      rw [hb, hc, List.map_cons, List.map_cons, List.cons.injEq] at hbindings
      simp [hbindings.1]

/-- **What the table of a call does not show.** Two calls whose candidates of the best rank are
alike one by one, and of which the first ones record the same arguments, have the same table or are
suppressed for the same reason, and they have the same hints. All other candidates may differ, and
stand anywhere. -/
theorem analyze_alike (config : Config) {cs cs' : List Candidate}
    (halike : List.Forall₂ Candidate.Alike (cs.filter (·.bestRanked)) (cs'.filter (·.bestRanked)))
    (hfirst : (cs.filter (·.bestRanked)).head?.bind Candidate.arguments? =
      (cs'.filter (·.bestRanked)).head?.bind Candidate.arguments?) :
    analyze config cs = analyze config cs' ∧ hints config cs = hints config cs' := by
  have hcolumns : (columns cs).map (·.map Binding.expectation) =
      (columns cs').map (·.map Binding.expectation) := columns_alike halike
  have hlength : (columns cs).length = (columns cs').length := by
    simpa using congrArg List.length hcolumns
  have hbest : (best cs).length = (best cs').length := halike.length_eq
  have htable : analyze config cs = analyze config cs' := by
    rw [analyze_eq, analyze_eq, hlength, hbest]
    split
    · rfl
    · rename_i hnone
      obtain ⟨-, -, hle⟩ := suppression?_eq_none hnone
      have harguments : rowArguments (columns cs) = rowArguments (columns cs') := by
        rw [rowArguments_columns (by omega), rowArguments_columns hle, best, best, hfirst]
      rw [harguments, funext (report?_congr hcolumns config.labels)]
  refine ⟨htable, ?_⟩
  rw [hints, hints, htable]

/-- The call `twiceBound` with other symbols and parameter names, with another type and span of the
unknown argument in the second candidate, and with other candidates below the best rank. -/
def twiceBoundDisguised : List Candidate :=
  let knownArgument : Argument := ⟨⟨1⟩, ⟨0, 0⟩, some (.simple "kotlin.Int")⟩
  let unranked : Candidate :=
    { symbol := ⟨"k"⟩, bestRanked := false, optionalParameters := false, bindings := some [] }
  [unranked,
    .ofBindings ⟨"f2"⟩ [⟨listArgument, ⟨"a", .simple "kotlin.Int"⟩⟩,
      ⟨listArgument, ⟨"b", .simple "java.List"⟩⟩, ⟨unknownArgument, ⟨"c", .simple "kotlin.Int"⟩⟩],
    .ofBindings ⟨"h2"⟩ [⟨knownArgument, ⟨"d", .simple "kotlin.Int"⟩⟩],
    unranked]

theorem analyze_alike_twiceBound :
    List.Forall₂ Candidate.Alike (twiceBound.filter (·.bestRanked))
      (twiceBoundDisguised.filter (·.bestRanked)) ∧
    analyze .standard twiceBoundDisguised = .ok twiceBoundTable ∧
    hints .standard twiceBound = hints .standard twiceBoundDisguised := by
  have halike : List.Forall₂ Candidate.Alike (twiceBound.filter (·.bestRanked))
      (twiceBoundDisguised.filter (·.bestRanked)) := .cons ⟨rfl, rfl⟩ (.cons ⟨rfl, rfl⟩ .nil)
  obtain ⟨htable, hhints⟩ := analyze_alike .standard halike rfl
  exact ⟨halike, htable.symm, hhints⟩

/-! ## Other orders of the candidates -/

/-- The candidates of the best rank bind the same arguments in the same order, as those of one call
do. -/
def SharedArguments (cs : List Candidate) : Prop :=
  ∃ arguments, ∀ c ∈ cs.filter (·.bestRanked), ∀ bindings, c.bindings = some bindings →
    bindings.map (·.argument) = arguments

/-- Row `r'` is row `r` for other positions of the candidates: what `r` says of the candidate at
position `i` of `cs` is what `r'` says of the same candidate at its position `j` of `cs'`, and `r'`
says nothing else. -/
structure Rearranged (config : Config) (cs cs' : List Candidate) (r r' : Report) : Prop where
  argument : r'.argument = r.argument
  form : r'.form = r.form
  verdict : ∀ (i j : Nat) (c : Candidate), cs[i]? = some c → cs'[j]? = some c → ∀ v,
    (∃ label, ⟨i, label, v⟩ ∈ r.verdicts) ↔
      ∃ label, config.label? j = some label ∧ ⟨j, label, v⟩ ∈ r'.verdicts
  placed : ∀ v ∈ r'.verdicts, v.index < cs'.length ∧ config.label? v.index = some v.label
  increasing : r'.verdicts.Pairwise fun v w => v.index < w.index

/-- The verdict on an argument by the bindings of a candidate that takes it. -/
def Judges (bindings : List Binding) (a : Argument) (v : Verdict) : Prop :=
  ∃ p, Binding.LastBound bindings a.id p ∧
    v = if p.type.render .qualified = a.shown .qualified then .accepted else .rejected p.type

theorem exists_label?_of_column {config : Config} {columns : List (List Binding)}
    (hlen : columns.length ≤ config.labels.length) {k : Nat} {bindings : List Binding}
    (hk : columns[k]? = some bindings) : ∃ label, config.label? k = some label := by
  have hlt := (List.getElem?_eq_some_iff.1 hk).1
  exact Config.exists_label?_of_lt (Nat.lt_of_lt_of_le hlt hlen)

section
variable {config : Config} {columns : List (List Binding)} {a : Argument} {r : Report}
  (hrow : Row config columns a r)
include hrow

theorem Row.mem_iff {k : Nat} {label : String} {v : Verdict} :
    ⟨k, label, v⟩ ∈ r.verdicts ↔ config.label? k = some label ∧
      ∃ bindings, columns[k]? = some bindings ∧ Judges bindings a v := by
  rw [hrow.verdicts]
  constructor
  · rintro ⟨p, ⟨bindings, hk, hp⟩, hlabel, hv⟩
    exact ⟨hlabel, bindings, hk, p, hp, hv⟩
  · rintro ⟨hlabel, bindings, hk, p, hp, hv⟩
    exact ⟨p, ⟨bindings, hk, hp⟩, hlabel, hv⟩

/-- The form of a row, without positions. -/
theorem Row.form_iff (hlen : columns.length ≤ config.labels.length) :
    r.form = .qualified ↔ ∃ bindings ∈ columns, ∃ expected,
      Judges bindings a (.rejected expected) ∧ expected.render .short = a.shown .short := by
  rw [hrow.form]
  constructor
  · rintro ⟨⟨k, label, v⟩, hv, expected, rfl, hshort⟩
    obtain ⟨-, bindings, hk, hjudges⟩ := hrow.mem_iff.1 hv
    exact ⟨bindings, List.mem_of_getElem? hk, expected, hjudges, hshort⟩
  · rintro ⟨bindings, hmem, expected, hjudges, hshort⟩
    obtain ⟨k, hk⟩ := List.mem_iff_getElem?.1 hmem
    obtain ⟨label, hlabel⟩ := exists_label?_of_column hlen hk
    exact ⟨⟨k, label, .rejected expected⟩, hrow.mem_iff.2 ⟨hlabel, bindings, hk, hjudges⟩, expected,
      rfl, hshort⟩

end

theorem turnedDown_iff {columns : List (List Binding)} {a : Argument} :
    TurnedDown columns a ↔ ∃ bindings ∈ columns, ∃ p, Binding.LastBound bindings a.id p ∧
      p.type.render .qualified ≠ a.shown .qualified := by
  constructor
  · rintro ⟨k, p, ⟨bindings, hk, hp⟩, hne⟩
    exact ⟨bindings, List.mem_of_getElem? hk, p, hp, hne⟩
  · rintro ⟨bindings, hmem, p, hp, hne⟩
    obtain ⟨k, hk⟩ := List.mem_iff_getElem?.1 hmem
    exact ⟨k, p, ⟨bindings, hk, hp⟩, hne⟩

/-- The column at a position holds the bindings of the candidate there. -/
theorem column_eq {cs : List Candidate} {columns : List (List Binding)}
    (h : cs.map (·.bindings) = columns.map some) {k : Nat} {c : Candidate} (hk : cs[k]? = some c) :
    columns[k]? = c.bindings := by
  have hkth := congrArg (·[k]?) h
  simp only [List.getElem?_map, hk, Option.map_some] at hkth
  cases hcol : columns[k]? with
  | none => simp [hcol] at hkth
  | some bindings => simpa [hcol] using hkth.symm

section
variable {config : Config} {columns columns' : List (List Binding)}
  (hlen : columns.length ≤ config.labels.length) (hperm : columns.Perm columns')
include hlen hperm

theorem Row.rearranged {cs cs' : List Candidate} (hcs : cs.map (·.bindings) = columns.map some)
    (hcs' : cs'.map (·.bindings) = columns'.map some) {a : Argument} {r r' : Report}
    (hrow : Row config columns a r) (hrow' : Row config columns' a r') :
    Rearranged config cs cs' r r' := by
  have hlen' : columns'.length ≤ config.labels.length := hperm.length_eq ▸ hlen
  refine ⟨hrow'.argument.trans hrow.argument.symm, ?_, ?_, ?_, hrow'.increasing⟩
  · have hform : r'.form = .qualified ↔ r.form = .qualified := by
      rw [hrow.form_iff hlen, hrow'.form_iff hlen']
      simp only [hperm.mem_iff]
    cases hf : r.form <;> cases hf' : r'.form <;> simp_all
  · intro i j c hi hj v
    -- both sides speak of the bindings of `c`
    have hcolumn : columns[i]? = columns'[j]? := by rw [column_eq hcs hi, column_eq hcs' hj]
    simp only [hrow.mem_iff, hrow'.mem_iff, hcolumn]
    constructor
    · rintro ⟨-, -, bindings, hbindings, hjudges⟩
      obtain ⟨label, hlabel⟩ := exists_label?_of_column hlen' hbindings
      exact ⟨label, hlabel, hlabel, bindings, hbindings, hjudges⟩
    · rintro ⟨-, -, -, bindings, hbindings, hjudges⟩
      obtain ⟨label, hlabel⟩ := exists_label?_of_column hlen (hcolumn.trans hbindings)
      exact ⟨label, hlabel, bindings, hbindings, hjudges⟩
  · intro v hv
    obtain ⟨hlabel, bindings, hk, -⟩ := hrow'.mem_iff.1 hv
    have hlt := (List.getElem?_eq_some_iff.1 hk).1
    have hlength : cs'.length = columns'.length := by simpa using congrArg List.length hcs'
    exact ⟨by omega, hlabel⟩

/-- An argument has a row under both orders or under none. -/
theorem report?_rearranged {cs cs' : List Candidate} (hcs : cs.map (·.bindings) = columns.map some)
    (hcs' : cs'.map (·.bindings) = columns'.map some) (a : Argument) :
    Option.Rel (Rearranged config cs cs') (report? config.labels columns a)
      (report? config.labels columns' a) := by
  have hlen' : columns'.length ≤ config.labels.length := hperm.length_eq ▸ hlen
  have hdown : TurnedDown columns a ↔ TurnedDown columns' a := by
    rw [turnedDown_iff, turnedDown_iff]
    simp only [hperm.mem_iff]
  cases hr : report? config.labels columns a with
  | none =>
    cases hr' : report? config.labels columns' a with
    | none => exact .none
    | some r' => exact absurd (hdown.2 (report?_row hlen' hr').1) (report?_none hlen hr)
  | some r =>
    obtain ⟨hturned, hrow⟩ := report?_row hlen hr
    cases hr' : report? config.labels columns' a with
    | none => exact absurd (hdown.1 hturned) (report?_none hlen' hr')
    | some r' => exact .some (hrow.rearranged hlen hperm hcs hcs' (report?_row hlen' hr').2)

end

theorem rowArguments_shared {cs : List Candidate} {arguments : List Argument}
    (h : ∀ c ∈ best cs, ∀ bindings, c.bindings = some bindings →
      bindings.map (·.argument) = arguments) (hpos : 0 < (columns cs).length) :
    rowArguments (columns cs) = arguments := by
  obtain ⟨first, rest, hfirst⟩ := List.exists_cons_of_length_pos hpos
  have hmem : first ∈ columns cs := by simp [hfirst]
  obtain ⟨c, hc, hbindings⟩ := List.mem_filterMap.1 hmem
  rw [hfirst]
  exact h c hc first (explainable?_eq_bindings hbindings)

/-- **The order of the candidates.** Where the candidates of the best rank bind the same arguments,
any other order of the candidates of a call is suppressed for the same reason, or has a table with
the same rows, in which each candidate of the best rank keeps its verdicts. -/
theorem analyze_rearranged {config : Config} {cs cs' : List Candidate} (hperm : cs.Perm cs')
    (hshared : SharedArguments cs) :
    (∀ why, analyze config cs = .error why ↔ analyze config cs' = .error why) ∧
    ∀ rs rs', analyze config cs = .ok rs → analyze config cs' = .ok rs' →
      List.Forall₂
        (Rearranged config (cs.filter (·.bestRanked)) (cs'.filter (·.bestRanked))) rs rs' := by
  obtain ⟨arguments, hshared⟩ := hshared
  have hbest : (best cs).Perm (best cs') := hperm.filter _
  have hcolumns : (columns cs).Perm (columns cs') := hbest.filterMap _
  rw [analyze_eq, analyze_eq, ← hcolumns.length_eq, ← hbest.length_eq]
  split
  · simp
  · rename_i hnone
    obtain ⟨hpos, hbound, hle⟩ := suppression?_eq_none hnone
    refine ⟨by simp, ?_⟩
    rintro _ _ ⟨⟩ ⟨⟩
    have hle' : (best cs').length ≤ (columns cs').length := by
      rw [← hbest.length_eq, ← hcolumns.length_eq]
      exact hle
    have hshared' : ∀ c ∈ best cs', ∀ bindings, c.bindings = some bindings →
        bindings.map (·.argument) = arguments := fun c hc => hshared c (hbest.mem_iff.2 hc)
    have hpos' : 0 < (columns cs').length := hcolumns.length_eq ▸ hpos
    rw [rowArguments_shared hshared hpos, rowArguments_shared hshared' hpos']
    have hlen : (columns cs).length ≤ config.labels.length :=
      Nat.le_trans hbound config.effectiveBound_le_length
    refine List.rel_filterMap (R := Eq) (fun a _ ha => ?_) (List.forall₂_refl arguments)
    rw [← ha]
    exact report?_rearranged hlen hcolumns (map_bindings_best _ hle) (map_bindings_best _ hle') a

/-- A call whose two candidates of the best rank take a list and an argument of unknown type. -/
def sharedCall : List Candidate :=
  let number : Parameter := ⟨"n", .simple "kotlin.Int"⟩
  [.ofBindings ⟨"f"⟩ [⟨listArgument, ⟨"xs", .simple "java.List"⟩⟩, ⟨unknownArgument, number⟩],
    { symbol := ⟨"g"⟩, bestRanked := false, optionalParameters := true, bindings := none },
    .ofBindings ⟨"h"⟩ [⟨listArgument, ⟨"xs", .simple "kotlin.List"⟩⟩, ⟨unknownArgument, number⟩]]

def sharedCallTable (onList onList' : LabeledVerdict) : List Report :=
  [⟨listArgument, .qualified, [onList, onList']⟩,
    ⟨unknownArgument, .short, [⟨0, "𝟙", .rejected (.simple "kotlin.Int")⟩,
      ⟨1, "𝟚", .rejected (.simple "kotlin.Int")⟩]⟩]

theorem analyze_rearranged_reverse :
    sharedCall.Perm sharedCall.reverse ∧ SharedArguments sharedCall ∧
    List.Forall₂ (Rearranged .standard (sharedCall.filter (·.bestRanked))
        (sharedCall.reverse.filter (·.bestRanked)))
      (sharedCallTable ⟨0, "𝟙", .rejected (.simple "java.List")⟩ ⟨1, "𝟚", .accepted⟩)
      (sharedCallTable ⟨0, "𝟙", .accepted⟩ ⟨1, "𝟚", .rejected (.simple "java.List")⟩) := by
  have hperm : sharedCall.Perm sharedCall.reverse := (List.reverse_perm _).symm
  have hshared : SharedArguments sharedCall := by
    refine ⟨[listArgument, unknownArgument], fun c hc bindings hbindings => ?_⟩
    simp only [sharedCall, Candidate.ofBindings, List.filter_cons, List.filter_nil, if_true,
      Bool.false_eq_true, if_false, List.mem_cons, List.not_mem_nil, or_false] at hc
    obtain rfl | rfl := hc <;> cases hbindings <;> rfl
  exact ⟨hperm, hshared, (analyze_rearranged hperm hshared).2 _ _ rfl rfl⟩

end Overload

end Inlay
