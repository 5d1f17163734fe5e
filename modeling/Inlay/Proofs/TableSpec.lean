import Inlay.Overload.Table
import Mathlib.Data.List.Sort

/-!
# What the table of a call says

`Overload.analyze` looks every argument of the first candidate up in every candidate. Here the table
is described without the lookups:

* `Binding.LastBound`: the parameter that the last binding of an argument gives it.
* `Overload.Row`: the row of an argument, by the candidates that take it.
* `Overload.Rows`: the rows along the bindings of the first candidate, without the arguments that
  every candidate accepts.

`Overload.analyze_rows` says that the table of a call is the only one that fits this description.
-/

namespace Inlay

/-! ## The last binding of an argument -/

/-- The last of the bindings of the argument `id` binds it to `p`. -/
def Binding.LastBound (bindings : List Binding) (id : ArgumentId) (p : Parameter) : Prop :=
  ∃ pre b post, bindings = pre ++ b :: post ∧ b.argument.id = id ∧ b.parameter = p ∧
    ∀ b' ∈ post, b'.argument.id ≠ id

theorem Binding.parameter?_eq_some_iff {bindings : List Binding} {id : ArgumentId}
    {p : Parameter} : Binding.parameter? bindings id = some p ↔ LastBound bindings id p := by
  unfold Binding.parameter?
  rw [List.findRev?_eq_find?_reverse, Option.map_eq_some_iff]
  constructor
  · rintro ⟨b, hb, rfl⟩
    obtain ⟨hid, post, pre, hrev, hpost⟩ := List.find?_eq_some_iff_append.1 hb
    refine ⟨pre.reverse, b, post.reverse, ?_, by simpa using hid, rfl, fun b' hb' => ?_⟩
    · rw [← List.reverse_inj, hrev]
      simp
    · simpa using hpost b' (List.mem_reverse.1 hb')
  · rintro ⟨pre, b, post, rfl, hid, rfl, hpost⟩
    refine ⟨b, List.find?_eq_some_iff_append.2 ⟨by simpa using hid, post.reverse, pre.reverse, ?_,
      fun b' hb' => ?_⟩, rfl⟩
    · simp
    · simpa using hpost b' (List.mem_reverse.1 hb')

/-! ## Rows -/

/-- The text of the type of an argument. -/
def Argument.shown (a : Argument) (form : NameForm) : String :=
  match a.declaredType with
  | some t => t.render form
  | none => "??"

theorem Argument.names_eq (a : Argument) : a.names = ⟨a.shown .short, a.shown .qualified⟩ := by
  unfold Argument.names Argument.shown
  cases a.declaredType <;> rfl

namespace Overload

section
variable (config : Config) (columns : List (List Binding))

/-- Candidate `k` takes the argument as its parameter `p`. -/
def Takes (a : Argument) (k : Nat) (p : Parameter) : Prop :=
  ∃ bindings, columns[k]? = some bindings ∧ Binding.LastBound bindings a.id p

/-- Some candidate takes the argument and expects a type with another qualified text. -/
def TurnedDown (a : Argument) : Prop :=
  ∃ k p, Takes columns a k p ∧ p.type.render .qualified ≠ a.shown .qualified

/-- The verdict of a candidate that takes the argument, under the label of its position. -/
def VerdictOn (a : Argument) (v : LabeledVerdict) : Prop :=
  ∃ p, Takes columns a v.index p ∧ config.label? v.index = some v.label ∧
    v.verdict = if p.type.render .qualified = a.shown .qualified then .accepted
      else .rejected p.type

/-- The row of an argument. -/
structure Row (a : Argument) (r : Report) : Prop where
  argument : r.argument = a
  increasing : r.verdicts.Pairwise fun v w => v.index < w.index
  listed : ∀ k p, Takes columns a k p → ∃ v ∈ r.verdicts, v.index = k
  verdicts : ∀ v, v ∈ r.verdicts ↔ VerdictOn config columns a v
  form : r.form = .qualified ↔ ∃ v ∈ r.verdicts, ∃ expected,
    v.verdict = .rejected expected ∧ expected.render .short = a.shown .short

/-- The rows along some bindings: one for each argument that is turned down. -/
inductive Rows : List Binding → List Report → Prop
  | nil : Rows [] []
  | keep {b : Binding} {bs : List Binding} {r : Report} {rs : List Report} :
      TurnedDown columns b.argument → Row config columns b.argument r → Rows bs rs →
      Rows (b :: bs) (r :: rs)
  | skip {b : Binding} {bs : List Binding} {rs : List Report} :
      ¬ TurnedDown columns b.argument → Rows bs rs → Rows (b :: bs) rs

end

section
variable {config : Config} {columns : List (List Binding)}

theorem Row.unique {a : Argument} {r r' : Report} (h : Row config columns a r)
    (h' : Row config columns a r') : r = r' := by
  have hv : r.verdicts = r'.verdicts := by
    -- lists in increasing order are equal if they have the same members
    have : Std.Irrefl fun v w : LabeledVerdict => v.index < w.index := ⟨fun _ => Nat.lt_irrefl _⟩
    have : Std.Antisymm fun v w : LabeledVerdict => v.index < w.index :=
      ⟨fun _ _ h1 h2 => absurd h1 (Nat.lt_asymm h2)⟩
    exact h.increasing.eq_of_mem_iff h'.increasing fun v =>
      (h.verdicts v).trans (h'.verdicts v).symm
  have hform : r.form = .qualified ↔ r'.form = .qualified := by
    rw [h.form, h'.form, hv]
  obtain ⟨a, f, vs⟩ := r
  obtain ⟨a', f', vs'⟩ := r'
  obtain rfl : a = a' := h.argument.trans h'.argument.symm
  obtain rfl : vs = vs' := hv
  cases f <;> cases f' <;> simp_all

/-- The description leaves no choice. -/
theorem Rows.unique {bs : List Binding} {rs rs' : List Report} (h : Rows config columns bs rs)
    (h' : Rows config columns bs rs') : rs = rs' := by
  induction h generalizing rs' with
  | nil => cases h'; rfl
  | keep hd hr _ ih =>
    cases h' with
    | keep _ hr' h' => rw [hr.unique hr', ih h']
    | skip hd' _ => exact absurd hd hd'
  | skip hd _ ih =>
    cases h' with
    | keep hd' _ _ => exact absurd hd' hd
    | skip _ h' => exact ih h'

end

/-! ## The rows that are computed -/

theorem mem_verdicts {labels : List String} {columns : List (List Binding)} {a : Argument}
    {v : LabeledVerdict} : v ∈ verdicts labels columns a ↔
      ∃ p, Takes columns a v.index p ∧ labels[v.index]? = some v.label ∧
        v.verdict = .of a.names p.type := by
  unfold verdicts
  rw [List.mem_filterMap]
  constructor
  · rintro ⟨⟨⟨bindings, label⟩, k⟩, hm, hv⟩
    obtain ⟨hb, hl⟩ := List.getElem?_zip_eq_some.1 (List.mem_zipIdx_iff_getElem?.1 hm)
    obtain ⟨p, hp, rfl⟩ := Option.map_eq_some_iff.1 hv
    exact ⟨p, ⟨bindings, hb, Binding.parameter?_eq_some_iff.1 hp⟩, hl, rfl⟩
  · rintro ⟨p, ⟨bindings, hb, hp⟩, hl, hv⟩
    refine ⟨((bindings, v.label), v.index), ?_, ?_⟩
    · exact List.mem_zipIdx_iff_getElem?.2 (List.getElem?_zip_eq_some.2 ⟨hb, hl⟩)
    · dsimp only
      rw [Binding.parameter?_eq_some_iff.2 hp, Option.map_some, ← hv]

theorem verdicts_increasing (labels : List String) (columns : List (List Binding)) (a : Argument) :
    (verdicts labels columns a).Pairwise fun v w => v.index < w.index := by
  have hpositions : (columns.zip labels).zipIdx.Pairwise fun x y => x.2 < y.2 := by
    rw [← List.pairwise_map, List.zipIdx_map_snd]
    exact List.pairwise_lt_range'
  refine hpositions.filterMap _ fun x y hxy v hv w hw => ?_
  obtain ⟨p, -, rfl⟩ := Option.map_eq_some_iff.1 hv
  obtain ⟨q, -, rfl⟩ := Option.map_eq_some_iff.1 hw
  exact hxy

theorem verdict_of_eq (a : Argument) (t : Ty) :
    Verdict.of a.names t =
      if t.render .qualified = a.shown .qualified then .accepted else .rejected t := by
  have hiff : NameMatch.of a.names t.names = .exact ↔
      t.render .qualified = a.shown .qualified := by
    rw [NameMatch.of_eq_exact_iff, a.names_eq]
    exact eq_comm
  rw [Verdict.of]
  simp only [hiff]

section
variable {config : Config} {columns : List (List Binding)}

theorem takes_lt {a : Argument} {k : Nat} {p : Parameter} (h : Takes columns a k p) :
    k < columns.length := by
  obtain ⟨bindings, hb, -⟩ := h
  exact (List.getElem?_eq_some_iff.1 hb).1

theorem mem_verdicts_iff {a : Argument} {v : LabeledVerdict} :
    v ∈ verdicts config.labels columns a ↔ VerdictOn config columns a v := by
  simp only [mem_verdicts, VerdictOn, Config.label?, verdict_of_eq]

/-- Every candidate that takes the argument has a verdict, since it has a label. -/
theorem verdicts_listed {labels : List String} (hlen : columns.length ≤ labels.length)
    {a : Argument} {k : Nat} {p : Parameter} (h : Takes columns a k p) :
    ⟨k, labels[k]!, .of a.names p.type⟩ ∈ verdicts labels columns a := by
  have hk : k < labels.length := Nat.lt_of_lt_of_le (takes_lt h) hlen
  exact mem_verdicts.2 ⟨p, h, by simp [hk], rfl⟩

theorem any_rejected_iff (hlen : columns.length ≤ config.labels.length) (a : Argument) :
    (verdicts config.labels columns a).any (·.verdict.isRejected) = true ↔
      TurnedDown columns a := by
  rw [List.any_eq_true]
  constructor
  · rintro ⟨v, hv, hr⟩
    obtain ⟨p, hp, -, hverdict⟩ := mem_verdicts_iff.1 hv
    refine ⟨v.index, p, hp, fun he => ?_⟩
    rw [hverdict, if_pos he] at hr
    cases hr
  · rintro ⟨k, p, hp, hne⟩
    refine ⟨_, verdicts_listed hlen hp, ?_⟩
    rw [verdict_of_eq, if_neg hne]
    rfl

theorem isConfusing_iff {a : Argument} {v : LabeledVerdict}
    (hv : v ∈ verdicts config.labels columns a) :
    v.verdict.isConfusing a.names = true ↔
      ∃ expected, v.verdict = .rejected expected ∧ expected.render .short = a.shown .short := by
  obtain ⟨p, -, -, hverdict⟩ := mem_verdicts_iff.1 hv
  by_cases he : p.type.render .qualified = a.shown .qualified
  · rw [if_pos he] at hverdict
    simp [hverdict, Verdict.isConfusing]
  · rw [if_neg he] at hverdict
    rw [hverdict, Verdict.isConfusing, Names.clash_iff, a.names_eq]
    simp [Ty.names, Ne.symm he, eq_comm]

theorem qualifiedIf_eq_iff (b : Bool) : NameForm.qualifiedIf b = .qualified ↔ b = true := by
  cases b <;> simp [NameForm.qualifiedIf]

theorem report?_row {a : Argument} {r : Report} (hlen : columns.length ≤ config.labels.length)
    (h : report? config.labels columns a = some r) :
    TurnedDown columns a ∧ Row config columns a r := by
  unfold report? at h
  dsimp only at h
  split at h
  · rename_i hany
    cases h
    refine ⟨(any_rejected_iff hlen a).1 hany, rfl, verdicts_increasing _ _ _, ?_, ?_, ?_⟩
    · exact fun k p hp => ⟨_, verdicts_listed hlen hp, rfl⟩
    · exact fun v => mem_verdicts_iff
    · rw [qualifiedIf_eq_iff, List.any_eq_true]
      exact exists_congr fun v => and_congr_right isConfusing_iff
  · cases h

theorem report?_none {a : Argument} (hlen : columns.length ≤ config.labels.length)
    (h : report? config.labels columns a = none) : ¬ TurnedDown columns a := by
  unfold report? at h
  dsimp only at h
  split at h
  · cases h
  · rename_i hany
    exact fun hd => hany ((any_rejected_iff hlen a).2 hd)

theorem filterMap_rows (hlen : columns.length ≤ config.labels.length) : ∀ bs : List Binding,
    Rows config columns bs (bs.filterMap fun b => report? config.labels columns b.argument)
  | [] => .nil
  | b :: bs => by
    have ih := filterMap_rows hlen bs
    rw [List.filterMap_cons]
    cases hr : report? config.labels columns b.argument with
    | none => exact .skip (report?_none hlen hr) ih
    | some r =>
      obtain ⟨hd, hrow⟩ := report?_row hlen hr
      exact .keep hd hrow ih

end

/-! ## Tables -/

theorem labels?_eq {config : Config} {n : Nat} (h : n ≤ config.labels.length) :
    labels? config n = some (config.labels.take n) := by
  induction n with
  | zero => rfl
  | succ n ih =>
    have hn : n < config.labels.length := h
    unfold labels? at ih ⊢
    rw [List.range_succ, List.mapM_append, ih (by omega), List.take_add_one]
    simp [Config.label?, hn]

/-- The labels beyond the last candidate make no difference. -/
theorem report?_take (labels : List String) (columns : List (List Binding)) (a : Argument) :
    report? (labels.take columns.length) columns a = report? labels columns a := by
  have hzip : columns.zip (labels.take columns.length) = columns.zip labels := by
    calc columns.zip (labels.take columns.length)
      _ = (columns.take columns.length).zip (labels.take columns.length) := by
        rw [List.take_length]
      _ = (columns.zip labels).take columns.length := List.take_zipWith.symm
      _ = columns.zip labels := List.take_of_length_le (by simp)
  unfold report? verdicts
  rw [hzip]

/-- Why a call is not explained, by the number of its candidates of the best rank and the number of
those that can be explained. -/
def suppression? (config : Config) (explainable best : Nat) : Option Suppression :=
  if explainable = 0 then some (.noneExplainable best)
  else if config.effectiveBound < explainable then some (.tooMany explainable config.effectiveBound)
  else if explainable < best then some (.discarded best explainable)
  else none

theorem suppression?_eq_none {config : Config} {explainable best : Nat}
    (h : suppression? config explainable best = none) :
    0 < explainable ∧ explainable ≤ config.effectiveBound ∧ best ≤ explainable := by
  unfold suppression? at h
  split at h
  · cases h
  · split at h
    · cases h
    · split at h
      · cases h
      · omega

/-- The arguments of the rows: those that the first explained candidate binds. -/
def rowArguments (columns : List (List Binding)) : List Argument :=
  (columns.headD []).map (·.argument)

/-- Whether a call is explained is a matter of counting: the labels never run out. -/
theorem analyze_eq (config : Config) (candidates : List Candidate) :
    analyze config candidates =
      match suppression? config (columns candidates).length (best candidates).length with
      | some why => .error why
      | none => .ok ((rowArguments (columns candidates)).filterMap
          (report? config.labels (columns candidates))) := by
  unfold analyze suppression?
  dsimp only
  cases columns candidates with
  | nil => rfl
  | cons first rest =>
    rw [if_neg (List.length_pos_iff.2 (List.cons_ne_nil first rest)).ne', rowArguments,
      List.headD_cons, List.filterMap_map]
    dsimp only
    split
    · rfl
    · rename_i hbound
      have hlen : (first :: rest).length ≤ config.labels.length :=
        Nat.le_trans (Nat.le_of_not_lt hbound) config.effectiveBound_le_length
      split
      · rfl
      · rw [labels?_eq hlen]
        dsimp only
        rw [funext fun b => report?_take _ _ _]
        rfl

/-- What a call needs to have a table. -/
theorem analyze_ok {config : Config} {candidates : List Candidate} {reports : List Report}
    (h : analyze config candidates = .ok reports) :
    ∃ first rest, columns candidates = first :: rest ∧
      (columns candidates).length ≤ config.effectiveBound ∧
      (best candidates).length ≤ (columns candidates).length ∧
      reports = first.filterMap fun b => report? config.labels (columns candidates) b.argument := by
  rw [analyze_eq] at h
  split at h
  · cases h
  · rename_i hnone
    obtain ⟨hpos, hbound, hbest⟩ := suppression?_eq_none hnone
    obtain ⟨first, rest, hcols⟩ := List.exists_cons_of_length_pos hpos
    cases h
    refine ⟨first, rest, hcols, hbound, hbest, ?_⟩
    rw [rowArguments, List.filterMap_map, hcols]
    rfl

/-- Every row of a table is that of an argument that is turned down. -/
theorem turnedDown_row_of_mem {config : Config} {candidates : List Candidate}
    {reports : List Report} (h : analyze config candidates = .ok reports) {r : Report}
    (hr : r ∈ reports) :
    TurnedDown (columns candidates) r.argument ∧ Row config (columns candidates) r.argument r := by
  obtain ⟨first, rest, -, hbound, -, rfl⟩ := analyze_ok h
  have hlen : (columns candidates).length ≤ config.labels.length :=
    Nat.le_trans hbound config.effectiveBound_le_length
  obtain ⟨b, -, hb⟩ := List.mem_filterMap.1 hr
  obtain ⟨hdown, hrow⟩ := report?_row hlen hb
  rw [hrow.argument]
  exact ⟨hdown, hrow⟩

theorem explainable?_eq_bindings {c : Candidate} {bindings : List Binding}
    (h : c.explainable? = some bindings) : c.bindings = some bindings := by
  unfold Candidate.explainable? at h
  split at h
  · cases h
  · exact h

/-- Where no candidate of the best rank is left out, the columns are their bindings. -/
theorem map_bindings_best : ∀ cs : List Candidate,
    cs.length ≤ (cs.filterMap Candidate.explainable?).length →
    cs.map (·.bindings) = (cs.filterMap Candidate.explainable?).map some
  | [], _ => rfl
  | c :: cs, h => by
    cases hc : c.explainable? with
    | none =>
      -- without `c` there are fewer columns than candidates
      rw [List.filterMap_cons_none hc, List.length_cons] at h
      have hle := List.length_filterMap_le Candidate.explainable? cs
      omega
    | some bindings =>
      rw [List.filterMap_cons_some hc, List.length_cons, List.length_cons] at h
      rw [List.filterMap_cons_some hc, List.map_cons, List.map_cons, explainable?_eq_bindings hc,
        map_bindings_best cs (by omega)]

/-- **The table of a call.** If a call has a table, every candidate of the best rank has its
arguments bound, and the table holds exactly the rows along the bindings of the first of them. -/
theorem analyze_rows {config : Config} {candidates : List Candidate} {reports : List Report}
    (h : analyze config candidates = .ok reports) :
    ∃ first rest, (candidates.filter (·.bestRanked)).map (·.bindings) = (first :: rest).map some ∧
      ∀ rs, Rows config (first :: rest) first rs ↔ rs = reports := by
  obtain ⟨first, rest, hcols, hbound, hbest, rfl⟩ := analyze_ok h
  have hlen : (columns candidates).length ≤ config.labels.length :=
    Nat.le_trans hbound config.effectiveBound_le_length
  have hrows := filterMap_rows hlen first
  refine ⟨first, rest, ?_, fun rs => ⟨fun hrs => ?_, ?_⟩⟩
  · rw [← hcols]
    exact map_bindings_best _ hbest
  · rw [← hcols] at hrs
    exact hrs.unique hrows
  · rintro rfl
    rw [hcols] at hrows ⊢
    exact hrows

/-- A list and an argument of unknown type. -/
def listArgument : Argument := ⟨⟨0⟩, ⟨4, 6⟩, some (.simple "kotlin.List")⟩

def unknownArgument : Argument := ⟨⟨1⟩, ⟨8, 9⟩, none⟩

/-- A call of which the first candidate binds the list twice, the second is not of the best rank and
the third does not take the list. -/
def twiceBound : List Candidate :=
  let number : Parameter := ⟨"n", .simple "kotlin.Int"⟩
  let list : Parameter := ⟨"xs", .simple "java.List"⟩
  [.ofBindings ⟨"f"⟩ [⟨listArgument, number⟩, ⟨listArgument, list⟩, ⟨unknownArgument, number⟩],
    { symbol := ⟨"g"⟩, bestRanked := false, optionalParameters := true, bindings := none },
    .ofBindings ⟨"h"⟩ [⟨unknownArgument, number⟩]]

def twiceBoundTable : List Report :=
  let listRow : Report := ⟨listArgument, .qualified, [⟨0, "𝟙", .rejected (.simple "java.List")⟩]⟩
  [listRow, listRow, ⟨unknownArgument, .short,
    [⟨0, "𝟙", .rejected (.simple "kotlin.Int")⟩, ⟨1, "𝟚", .rejected (.simple "kotlin.Int")⟩]⟩]

theorem analyze_rows_twiceBound :
    analyze .standard twiceBound = .ok twiceBoundTable ∧
    ∃ first rest, (twiceBound.filter (·.bestRanked)).map (·.bindings) = (first :: rest).map some ∧
      ∀ rs, Rows .standard (first :: rest) first rs ↔ rs = twiceBoundTable :=
  ⟨rfl, analyze_rows rfl⟩

end Overload

end Inlay
