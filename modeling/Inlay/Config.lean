/-!
# Configuration

How many candidates of a call are explained at most, and the labels that tell them apart. A
configuration is valid by construction: the bound is positive, and there is at least one label and
none twice.

* `Config.make`: checks a bound and labels; the errors are `ConfigError`.
* `Config.effectiveBound`: the number of candidates that can be explained.
* `firstRepeat?_eq_none_iff`: what the check for repeated labels finds.
-/

namespace Inlay

/-! ## Repetition in a list -/

/-- The first member of `xs` that is in `seen` or occurs before in `xs`. -/
def firstRepeatAfter? {α : Type} [DecidableEq α] (seen : List α) : List α → Option α
  | [] => none
  | x :: xs => if x ∈ seen then some x else firstRepeatAfter? (x :: seen) xs

/-- The first member of a list that has occurred before. -/
def firstRepeat? {α : Type} [DecidableEq α] (xs : List α) : Option α := firstRepeatAfter? [] xs

theorem firstRepeatAfter?_eq_none_iff {α : Type} [DecidableEq α] (seen xs : List α) :
    firstRepeatAfter? seen xs = none ↔ xs.Nodup ∧ ∀ x ∈ xs, x ∉ seen := by
  induction xs generalizing seen with
  | nil => simp [firstRepeatAfter?]
  | cons x xs ih =>
    by_cases h : x ∈ seen
    · simp [firstRepeatAfter?, h]
    · simp only [firstRepeatAfter?, h, if_false, ih, List.nodup_cons, List.mem_cons, not_or,
        forall_eq_or_imp, not_false_eq_true, true_and]
      constructor
      · rintro ⟨hn, hx⟩
        exact ⟨⟨fun hm => (hx x hm).1 rfl, hn⟩, fun y hy => (hx y hy).2⟩
      · rintro ⟨⟨hm, hn⟩, hx⟩
        exact ⟨hn, fun y hy => ⟨fun he => hm (he ▸ hy), hx y hy⟩⟩

/-- No member is found exactly when none occurs twice. -/
theorem firstRepeat?_eq_none_iff {α : Type} [DecidableEq α] (xs : List α) :
    firstRepeat? xs = none ↔ xs.Nodup := by
  simp [firstRepeat?, firstRepeatAfter?_eq_none_iff]

/-! ## Configurations -/

/-- Why a configuration is refused. -/
inductive ConfigError where
  | zeroBound
  | duplicateLabel (label : String)
  | noLabels
deriving DecidableEq, Repr

/-- The wording of a refusal. -/
def ConfigError.message : ConfigError → String
  | .zeroBound => "the overload bound must be at least 1"
  | .duplicateLabel label => "candidate label `" ++ label ++ "` is used more than once"
  | .noLabels => "at least one candidate label is required"

/-- How the candidates of a call are explained: how many at most, and under which labels. -/
structure Config where
  maxOverloads : Nat
  labels : List String
  maxOverloads_pos : 0 < maxOverloads
  labels_nodup : labels.Nodup
  labels_ne_nil : labels ≠ []
deriving DecidableEq, Repr

namespace Config

/-- The bound where none is given. -/
def defaultMaxOverloads : Nat := 4

/-- The labels where none are given: the double-struck digits one to four. -/
def defaultLabels : List String := ["𝟙", "𝟚", "𝟛", "𝟜"]

/-- Checks a bound and labels. A zero bound is reported before a repeated label, and that before
the lack of labels. -/
def make (maxOverloads : Nat) (labels : List String) : Except ConfigError Config :=
  if hpos : 0 < maxOverloads then
    match hrep : firstRepeat? labels with
    | some label => .error (.duplicateLabel label)
    | none =>
      if hnil : labels = [] then .error .noLabels
      else .ok ⟨maxOverloads, labels, hpos, (firstRepeat?_eq_none_iff labels).1 hrep, hnil⟩
  else .error .zeroBound

/-- The default labels with another bound. -/
def withMaxOverloads (maxOverloads : Nat) : Except ConfigError Config :=
  make maxOverloads defaultLabels

/-- The configuration where none is given. -/
def standard : Config := ⟨defaultMaxOverloads, defaultLabels, by decide, by decide, by decide⟩

instance : Inhabited Config := ⟨standard⟩

/-- The number of candidates that can be explained: each needs a label. -/
def effectiveBound (c : Config) : Nat := min c.maxOverloads c.labels.length

/-- The label of the candidate at a position. -/
def label? (c : Config) (i : Nat) : Option String := c.labels[i]?

theorem exists_label?_of_lt {c : Config} {i : Nat} (h : i < c.labels.length) :
    ∃ label, c.label? i = some label :=
  ⟨_, List.getElem?_eq_getElem h⟩

theorem effectiveBound_pos (c : Config) : 0 < c.effectiveBound := by
  have := List.length_pos_iff.2 c.labels_ne_nil
  have := c.maxOverloads_pos
  unfold effectiveBound
  omega

theorem effectiveBound_le_length (c : Config) : c.effectiveBound ≤ c.labels.length := by
  unfold effectiveBound
  omega

end Config

end Inlay
