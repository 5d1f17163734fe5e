import Inlay.Config

/-!
# Which configurations are accepted

`Config.make` looks for three faults, one after the other: no candidate may be explained, a label
occurs twice, there is no label.

* `firstRepeatAfter?_eq_some_iff`: the loop over the labels stops at the first position whose label
  stands at an earlier one. The induction carries the labels already seen (`Repeats seen`).
* `Config.make_eq_iff`: what the check ends with (`Config.Outcome`).
* `Config.make_checks`: each outcome by its condition, and what holds of every configuration that
  can be had (`Config.Built`): as many candidates as may be explained have a label each, and no two
  of them have the same.
-/

namespace Inlay

/-! ## The first repetition -/

section
variable {α : Type} {seen xs : List α} {a x : α} {j : Nat}

/-- At position `j` stands `x`, which is in `seen` or stands at an earlier position. -/
def Repeats (seen xs : List α) (j : Nat) (x : α) : Prop :=
  xs[j]? = some x ∧ (x ∈ seen ∨ x ∈ xs.take j)

theorem repeats_zero : Repeats seen (a :: xs) 0 x ↔ a = x ∧ x ∈ seen := by
  simp [Repeats]

theorem repeats_succ : Repeats seen (a :: xs) (j + 1) x ↔ Repeats (a :: seen) xs j x := by
  simp only [Repeats, List.getElem?_cons_succ, List.take_succ_cons, List.mem_cons]
  refine and_congr_right fun _ => ⟨fun h => ?_, fun h => ?_⟩
  · rcases h with hseen | rfl | hearlier
    · exact .inl (.inr hseen)
    · exact .inl (.inl rfl)
    · exact .inr hearlier
  · rcases h with (rfl | hseen) | hearlier
    · exact .inr (.inl rfl)
    · exact .inl hseen
    · exact .inr (.inr hearlier)

variable [DecidableEq α]

theorem firstRepeatAfter?_eq_some_iff : firstRepeatAfter? seen xs = some x ↔
    ∃ j, Repeats seen xs j x ∧ ∀ i < j, ∀ y, ¬ Repeats seen xs i y := by
  induction xs generalizing seen with
  | nil => simp [firstRepeatAfter?, Repeats]
  | cons a xs ih =>
    by_cases ha : a ∈ seen
    · rw [firstRepeatAfter?, if_pos ha, Option.some_inj]
      refine ⟨fun h => ⟨0, repeats_zero.2 ⟨h, h ▸ ha⟩, by omega⟩, fun h => ?_⟩
      obtain ⟨j, hj, hleast⟩ := h
      cases j with
      | zero => exact (repeats_zero.1 hj).1
      | succ j => exact absurd (repeats_zero.2 ⟨rfl, ha⟩) (hleast 0 (by omega) a)
    · -- `a` is new, so position 0 repeats nothing and all others move down by one
      have hzero : ∀ y, ¬ Repeats seen (a :: xs) 0 y := by
        intro y hy
        obtain ⟨rfl, hseen⟩ := repeats_zero.1 hy
        exact ha hseen
      rw [firstRepeatAfter?, if_neg ha, ih]
      refine ⟨fun h => ?_, fun h => ?_⟩ <;> obtain ⟨j, hj, hleast⟩ := h
      · refine ⟨j + 1, repeats_succ.2 hj, fun i hi y hy => ?_⟩
        cases i with
        | zero => exact hzero y hy
        | succ i => exact hleast i (by omega) y (repeats_succ.1 hy)
      · cases j with
        | zero => exact absurd hj (hzero x)
        | succ j =>
          refine ⟨j, repeats_succ.1 hj, fun i hi y hy => ?_⟩
          exact hleast (i + 1) (by omega) y (repeats_succ.2 hy)

theorem firstRepeat?_eq_some_iff : firstRepeat? xs = some x ↔
    ∃ j, xs[j]? = some x ∧ x ∈ xs.take j ∧ ∀ i < j, ∀ y, xs[i]? = some y → y ∉ xs.take i := by
  simp [firstRepeat?, firstRepeatAfter?_eq_some_iff, Repeats, and_assoc]

end

theorem exists_firstRepeat?_iff {α : Type} [DecidableEq α] {xs : List α} :
    (∃ x, firstRepeat? xs = some x) ↔ ¬ xs.Nodup := by
  rw [← firstRepeat?_eq_none_iff]
  exact Option.ne_none_iff_exists'.symm

namespace Config

/-! ## The outcomes of the check -/

/-- What a check of a bound and labels ends with. -/
inductive Outcome (maxOverloads : Nat) (labels : List String) : Except ConfigError Config → Prop
  | zeroBound : maxOverloads = 0 → Outcome maxOverloads labels (.error .zeroBound)
  | duplicateLabel {label : String} : maxOverloads ≠ 0 → firstRepeat? labels = some label →
      Outcome maxOverloads labels (.error (.duplicateLabel label))
  | noLabels : maxOverloads ≠ 0 → labels = [] → Outcome maxOverloads labels (.error .noLabels)
  | accepted {c : Config} : c.maxOverloads = maxOverloads → c.labels = labels →
      Outcome maxOverloads labels (.ok c)

theorem outcome_make (maxOverloads : Nat) (labels : List String) :
    Outcome maxOverloads labels (make maxOverloads labels) := by
  unfold make
  split
  · rename_i hpos
    have hm : maxOverloads ≠ 0 := by omega
    split
    · rename_i label hrep
      exact .duplicateLabel hm hrep
    · split
      · rename_i hnil
        exact .noLabels hm hnil
      · exact .accepted rfl rfl
  · exact .zeroBound (by omega)

theorem make_of_repeat {maxOverloads : Nat} {labels : List String} {label : String}
    (hm : maxOverloads ≠ 0) (hrep : firstRepeat? labels = some label) :
    make maxOverloads labels = .error (.duplicateLabel label) := by
  unfold make
  rw [dif_pos (by omega)]
  split
  · rename_i label' hrep'
    rw [hrep] at hrep'
    cases hrep'
    rfl
  · rename_i hrep'
    rw [hrep] at hrep'
    cases hrep'

theorem make_nil {maxOverloads : Nat} (hm : maxOverloads ≠ 0) :
    make maxOverloads [] = .error .noLabels := by
  unfold make
  rw [dif_pos (by omega)]
  rfl

/-- Every configuration passes its own check. -/
theorem make_self (c : Config) : make c.maxOverloads c.labels = .ok c := by
  have hrep := (firstRepeat?_eq_none_iff c.labels).2 c.labels_nodup
  unfold make
  rw [dif_pos c.maxOverloads_pos]
  split
  · rename_i label hrep'
    rw [hrep] at hrep'
    cases hrep'
  · rw [dif_neg c.labels_ne_nil]

theorem make_eq_iff {maxOverloads : Nat} {labels : List String} {out : Except ConfigError Config} :
    make maxOverloads labels = out ↔ Outcome maxOverloads labels out := by
  refine ⟨fun h => h ▸ outcome_make maxOverloads labels, fun h => ?_⟩
  cases h with
  | zeroBound hm =>
    subst hm
    rfl
  | duplicateLabel hm hrep => exact make_of_repeat hm hrep
  | noLabels hm hnil =>
    subst hnil
    exact make_nil hm
  | @accepted c hm hls =>
    subst hm hls
    exact make_self c

theorem make_eq_duplicateLabel_iff {maxOverloads : Nat} {labels : List String} {label : String} :
    make maxOverloads labels = .error (.duplicateLabel label) ↔
      maxOverloads ≠ 0 ∧ firstRepeat? labels = some label := by
  rw [make_eq_iff]
  refine ⟨fun h => ?_, fun h => .duplicateLabel h.1 h.2⟩
  cases h with
  | duplicateLabel hm hrep => exact ⟨hm, hrep⟩

theorem make_eq_ok {maxOverloads : Nat} {labels : List String} {c : Config}
    (h : make maxOverloads labels = .ok c) : c.maxOverloads = maxOverloads ∧ c.labels = labels := by
  cases make_eq_iff.1 h with
  | accepted hm hls => exact ⟨hm, hls⟩

/-! ## The labels of a configuration -/

theorem effectiveBound_le (c : Config) : c.effectiveBound ≤ c.maxOverloads := by
  unfold effectiveBound
  omega

theorem label?_inj {c : Config} {i j : Nat} {label : String} (hi : c.label? i = some label)
    (hj : c.label? j = some label) : i = j := by
  have hlt := (List.getElem?_eq_some_iff.1 hi).1
  exact (List.getElem?_inj hlt c.labels_nodup).1 (hi.trans hj.symm)

/-- The configurations that can be had. -/
inductive Built : Config → Prop
  | standard : Built standard
  | make {maxOverloads : Nat} {labels : List String} {c : Config} :
      make maxOverloads labels = .ok c → Built c
  | withMaxOverloads {maxOverloads : Nat} {c : Config} :
      withMaxOverloads maxOverloads = .ok c → Built c

/-- **Which configurations are accepted.** A zero bound is refused, whatever the labels. With any
other bound labels with a repetition are refused, and the label that is named stands at the first
position that repeats an earlier one. What is left is refused if there are no labels, and accepted
as it is otherwise. In every configuration that can be had, some candidate can be explained, all
that can be have a label, and no two positions have the same one. -/
theorem make_checks (maxOverloads : Nat) (labels : List String) :
    (make maxOverloads labels = .error .zeroBound ↔ maxOverloads = 0) ∧
    ((∃ label, make maxOverloads labels = .error (.duplicateLabel label)) ↔
      maxOverloads ≠ 0 ∧ ¬ labels.Nodup) ∧
    (∀ label, make maxOverloads labels = .error (.duplicateLabel label) ↔
      maxOverloads ≠ 0 ∧ ∃ j, labels[j]? = some label ∧ label ∈ labels.take j ∧
        ∀ i < j, ∀ earlier, labels[i]? = some earlier → earlier ∉ labels.take i) ∧
    (make maxOverloads labels = .error .noLabels ↔
      maxOverloads ≠ 0 ∧ labels.Nodup ∧ labels = []) ∧
    ((∃ c, make maxOverloads labels = .ok c) ↔
      maxOverloads ≠ 0 ∧ labels.Nodup ∧ labels ≠ []) ∧
    (∀ c, make maxOverloads labels = .ok c → c.maxOverloads = maxOverloads ∧ c.labels = labels) ∧
    ∀ c : Config, Built c ∧ 1 ≤ c.effectiveBound ∧ c.effectiveBound ≤ c.maxOverloads ∧
      (∀ i < c.effectiveBound, ∃ label, c.label? i = some label) ∧
      ∀ i j label, c.label? i = some label → c.label? j = some label → i = j := by
  refine ⟨?_, ?_, ?_, ?_, ?_, fun c hc => ?_, fun c => ?_⟩
  · rw [make_eq_iff]
    refine ⟨fun h => ?_, .zeroBound⟩
    cases h with
    | zeroBound hm => exact hm
  · simp only [make_eq_duplicateLabel_iff, exists_and_left, exists_firstRepeat?_iff]
  · simp only [make_eq_duplicateLabel_iff, firstRepeat?_eq_some_iff, implies_true]
  · rw [make_eq_iff]
    refine ⟨fun h => ?_, fun h => .noLabels h.1 h.2.2⟩
    cases h with
    | noLabels hm hnil => exact ⟨hm, hnil ▸ List.nodup_nil, hnil⟩
  · refine ⟨fun ⟨c, hc⟩ => ?_, fun ⟨hm, hnodup, hnil⟩ => ?_⟩
    · obtain ⟨rfl, rfl⟩ := make_eq_ok hc
      exact ⟨Nat.ne_of_gt c.maxOverloads_pos, c.labels_nodup, c.labels_ne_nil⟩
    · exact ⟨_, make_self ⟨maxOverloads, labels, by omega, hnodup, hnil⟩⟩
  · exact make_eq_ok hc
  · exact ⟨.make c.make_self, c.effectiveBound_pos, c.effectiveBound_le,
      fun i hi => exists_label?_of_lt (Nat.lt_of_lt_of_le hi c.effectiveBound_le_length),
      fun i j label hi hj => label?_inj hi hj⟩

end Config

end Inlay
