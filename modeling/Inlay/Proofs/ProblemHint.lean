import Inlay.Proofs.HintText
import Inlay.Proofs.NormalForm

/-!
# What the hint of a problem is

The hint of a problem is described without the code that composes it: for what reasons there is
none (`Problem.Silent`), and else on which side of the ranges it stands and what is written there
(`Problem.Writes`). This is a list of plain texts and links, and the hint shows its normal form.

* `Hint.nullability_shows`, `Hint.comparison_shows`, `Hint.alternatives_shows`: each kind of hint.
* `Problem.compared_apart`: two types side by side are told apart if a form of their names does so.
* `Problem.hint_spec`: the hint of every problem, and when the declared type is asked for.
-/

namespace Inlay

/-! ## Types next to each other -/

namespace Ty

theorem formAmong_pair_iff (left right : Ty) : left.formAmong [right] = .qualified ↔
    left.render .short = right.render .short ∧
      left.render .qualified ≠ right.render .qualified := by
  simp [formAmong]

/-- Side by side, two types read the same only if they do so in both forms. -/
theorem render_pair_iff (left right : Ty) :
    left.render (left.formAmong [right]) = right.render (left.formAmong [right]) ↔
      left.render .short = right.render .short ∧
        left.render .qualified = right.render .qualified := by
  have hform := formAmong_pair_iff left right
  cases hf : left.formAmong [right] with
  | qualified =>
    obtain ⟨-, hne⟩ := hform.1 hf
    simp [hne]
  | short =>
    rw [hf] at hform
    simp only [reduceCtorEq, false_iff, not_and, not_not] at hform
    exact ⟨fun hshort => ⟨hshort, hform hshort⟩, fun h => h.1⟩

/-- Two types with a sign between them. -/
def compared (left : Ty) (sign : String) (right : Ty) : List Segment :=
  let form := left.formAmong [right]
  .plain ": " :: left.segments form ++ .plain sign :: right.segments form

/-- A choice of types in angle brackets. -/
def choice (types : List Ty) : List Segment :=
  .plain "<" :: [.plain " or "].intercalate (types.map fun t => t.segments (t.formAmong types)) ++
    [.plain ">"]

end Ty

/-! ## Hints next to ranges -/

/-- The offset on a side of some ranges. -/
def Side.offset? (ranges : List Span) : Side → Option UInt32
  | .before => ranges.head?.map (·.start)
  | .after => ranges.getLast?.map (·.stop)

namespace Hint

/-- A hint on a side of some ranges that shows what is written. -/
structure Shows (ranges : List Span) (side : Side) (written : List Segment) (h : Hint) : Prop where
  side_eq : h.side = side
  offset_eq : side.offset? ranges = some h.offset
  segments_eq : h.segments = Segment.normalize written

variable {ranges : List Span} {h : Hint}

theorem placed_shows {side : Side} {pieces : List Piece} :
    (side.offset? ranges).map (fun offset => (⟨offset, side, Piece.compose pieces⟩ : Hint)) =
      some h ↔ h.Shows ranges side (pieces.flatMap Piece.segments) := by
  rw [Option.map_eq_some_iff, Piece.compose_eq_normalize]
  constructor
  · rintro ⟨offset, hoffset, rfl⟩
    exact ⟨rfl, hoffset, rfl⟩
  · obtain ⟨offset, side, segments⟩ := h
    rintro ⟨rfl, hoffset, rfl⟩
    exact ⟨offset, hoffset, rfl⟩

theorem beforeRanges_shows {pieces : List Piece} : beforeRanges ranges pieces = some h ↔
    h.Shows ranges .before (pieces.flatMap Piece.segments) := placed_shows

theorem afterRanges_shows {pieces : List Piece} : afterRanges ranges pieces = some h ↔
    h.Shows ranges .after (pieces.flatMap Piece.segments) := placed_shows

section
variable {c : Prop} [Decidable c] {pieces : List Piece}

theorem ite_afterRanges_eq_none_iff :
    (if c then none else afterRanges ranges pieces) = none ↔ ranges = [] ∨ c := by
  by_cases hc : c
  · simp [hc]
  · simp [hc, afterRanges]

theorem ite_afterRanges_shows : (if c then none else afterRanges ranges pieces) = some h ↔
    ¬ c ∧ h.Shows ranges .after (pieces.flatMap Piece.segments) := by
  by_cases hc : c
  · simp [hc]
  · rw [if_neg hc, afterRanges_shows, and_iff_right hc]

end

theorem nullability_shows {actual expected : Ty} :
    nullability ranges actual expected = some h ↔ actual.nullable ≠ expected.nullable ∧
      h.Shows ranges .after [.plain ": ", .plain actual.nullabilityLabel, .plain " ⇏ ",
        .plain expected.nullabilityLabel] := ite_afterRanges_shows

theorem comparison_shows {left right : Ty} {sign : String} :
    comparison ranges left sign right = some h ↔
      left ≠ right ∧ h.Shows ranges .after (left.compared sign right) := by
  rw [comparison, Ty.pairForm_names, ite_afterRanges_shows]
  simp [Piece.segments, Ty.compared]

theorem flatMap_intersperse (sep : String) (pieces : List Piece) :
    (pieces.intersperse (.text sep)).flatMap Piece.segments =
      [.plain sep].intercalate (pieces.map Piece.segments) := by
  induction pieces with
  | nil => rfl
  | cons p pieces ih =>
    cases pieces with
    | nil => simp
    | cons q pieces =>
      rw [List.intersperse_cons_cons, List.flatMap_cons, List.flatMap_cons, ih]
      simp only [List.map_cons, List.intercalate_cons_cons, List.append_assoc]
      rfl

theorem alternatives_shows {types : List Ty} : alternatives ranges types = some h ↔
    types ≠ [] ∧ h.Shows ranges .after (Ty.choice types) := by
  have hshown : (List.zipWith Piece.type types (types.map (Ty.formAmong types))).map
      Piece.segments = types.map fun t => t.segments (t.formAmong types) := by
    simp [List.zipWith_map_right, Piece.segments]
  rw [alternatives, Ty.listForms_names, ite_afterRanges_shows, List.flatMap_append,
    List.flatMap_cons, flatMap_intersperse, hshown]
  simp [Piece.segments, Ty.choice]

end Hint

/-! ## Problems -/

namespace Problem

/-- The types that the hint of a problem compares, and the sign between them. -/
inductive Compares (declared : Option Ty) : Problem → Ty → String → Ty → Prop
  | mismatch (expected actual : Ty) :
      Compares declared (.mismatch expected actual false) (Ty.refine declared actual) " ⇏ " expected
  | incompatible (first second : Ty) :
      Compares declared (.incompatible first second) first " ≠ " second

/-- The reasons for which a problem has no hint. -/
inductive Silent (declared : Option Ty) (ranges : List Span) : Problem → Prop
  | noRanges {p : Problem} : ranges = [] → Silent declared ranges p
  | noneApplicable (cs : List Symbol) : Silent declared ranges (.noneApplicable cs)
  | ambiguousCandidate (cs : List Symbol) : Silent declared ranges (.ambiguousCandidate cs)
  | noTypes : Silent declared ranges (.ambiguousType [])
  | nullability {expected actual : Ty} : actual.nullable = expected.nullable →
      Silent declared ranges (.mismatch expected actual true)
  | comparison {p : Problem} {left right : Ty} {sign : String} :
      p.Compares declared left sign right → left = right → Silent declared ranges p

/-- What is written to the hint of a problem, and the side it stands on. -/
inductive Writes (declared : Option Ty) : Problem → Side → List Segment → Prop
  | nullability {expected actual : Ty} : actual.nullable ≠ expected.nullable →
      Writes declared (.mismatch expected actual true) .after [.plain ": ",
        .plain actual.nullabilityLabel, .plain " ⇏ ", .plain expected.nullabilityLabel]
  | comparison {p : Problem} {left right : Ty} {sign : String} :
      p.Compares declared left sign right → left ≠ right →
      Writes declared p .after (left.compared sign right)
  | variance (expected actual : Variance) : Writes declared (.variance expected actual) .before
      [.plain expected.keyword, .plain " ≠ ", .plain actual.keyword]
  | alternatives {types : List Ty} : types ≠ [] →
      Writes declared (.ambiguousType types) .after (Ty.choice types)

variable {declared : Option Ty} {ranges : List Span} {p : Problem} {h : Hint}

theorem Compares.hint {left right : Ty} {sign : String} (hp : p.Compares declared left sign right)
    (ranges : List Span) : Id.run (p.hint (pure declared) ranges) =
      Hint.comparison ranges left sign right := by
  cases hp <;> rfl

theorem hint_nil (declared : Option Ty) (p : Problem) :
    Id.run (p.hint (pure declared) []) = none := by
  cases p with
  | mismatch expected actual only =>
    cases only <;> exact Hint.ite_afterRanges_eq_none_iff.2 (.inl rfl)
  | incompatible | ambiguousType => exact Hint.ite_afterRanges_eq_none_iff.2 (.inl rfl)
  | variance | noneApplicable | ambiguousCandidate => rfl

theorem hint_eq_none_iff :
    Id.run (p.hint (pure declared) ranges) = none ↔ p.Silent declared ranges := by
  constructor
  · intro hnone
    cases p with
    | mismatch expected actual only =>
      cases only with
      | true =>
        obtain hr | hc := Hint.ite_afterRanges_eq_none_iff.1 hnone
        · exact .noRanges hr
        · exact .nullability hc
      | false =>
        obtain hr | hc := Hint.ite_afterRanges_eq_none_iff.1 hnone
        · exact .noRanges hr
        · exact .comparison (.mismatch expected actual) hc
    | incompatible first second =>
      obtain hr | hc := Hint.ite_afterRanges_eq_none_iff.1 hnone
      · exact .noRanges hr
      · exact .comparison (.incompatible first second) hc
    | variance expected actual =>
      have hbefore : Span.before? ranges = none := Option.map_eq_none_iff.1 hnone
      exact .noRanges (Span.before?_eq_none_iff.1 hbefore)
    | noneApplicable cs => exact .noneApplicable cs
    | ambiguousType types =>
      obtain hr | hc := Hint.ite_afterRanges_eq_none_iff.1 hnone
      · exact .noRanges hr
      · obtain rfl := List.isEmpty_iff.1 hc
        exact .noTypes
    | ambiguousCandidate cs => exact .ambiguousCandidate cs
  · intro hsilent
    cases hsilent with
    | noRanges hr =>
      rw [hr]
      exact hint_nil declared p
    | noneApplicable cs => rfl
    | ambiguousCandidate cs => rfl
    | noTypes => rfl
    | nullability hc => exact Hint.ite_afterRanges_eq_none_iff.2 (.inr hc)
    | comparison hp hc =>
      rw [hp.hint]
      exact Hint.ite_afterRanges_eq_none_iff.2 (.inr hc)

theorem hint_eq_some_iff : Id.run (p.hint (pure declared) ranges) = some h ↔
    ∃ side written, p.Writes declared side written ∧ h.Shows ranges side written := by
  constructor
  · intro hsome
    cases p with
    | mismatch expected actual only =>
      cases only with
      | true =>
        obtain ⟨hne, hshows⟩ := Hint.nullability_shows.1 hsome
        exact ⟨_, _, .nullability hne, hshows⟩
      | false =>
        obtain ⟨hne, hshows⟩ := Hint.comparison_shows.1 hsome
        exact ⟨_, _, .comparison (.mismatch expected actual) hne, hshows⟩
    | incompatible first second =>
      obtain ⟨hne, hshows⟩ := Hint.comparison_shows.1 hsome
      exact ⟨_, _, .comparison (.incompatible first second) hne, hshows⟩
    | variance expected actual =>
      exact ⟨_, _, .variance expected actual, Hint.beforeRanges_shows.1 hsome⟩
    | noneApplicable cs => cases hsome
    | ambiguousType types =>
      obtain ⟨hne, hshows⟩ := Hint.alternatives_shows.1 hsome
      exact ⟨_, _, .alternatives hne, hshows⟩
    | ambiguousCandidate cs => cases hsome
  · rintro ⟨side, written, hwrites, hshows⟩
    cases hwrites with
    | nullability hne => exact Hint.nullability_shows.2 ⟨hne, hshows⟩
    | comparison hp hne =>
      rw [hp.hint]
      exact Hint.comparison_shows.2 ⟨hne, hshows⟩
    | variance expected actual => exact Hint.beforeRanges_shows.2 hshows
    | alternatives hne => exact Hint.alternatives_shows.2 ⟨hne, hshows⟩

/-! ## Two types side by side -/

/-- **Whatever can be told apart is told apart.** A problem that compares two types has a hint if
the types are different. It shows both in one form, the qualified one only where their short texts
are equal, and they read the same only if no form tells them apart. -/
theorem compared_apart {left right : Ty} {sign : String} (hp : p.Compares declared left sign right)
    (hr : ranges ≠ []) :
    (Id.run (p.hint (pure declared) ranges) = none ↔ left = right) ∧
    (left ≠ right → ∃ (form : NameForm) (h : Hint),
      Id.run (p.hint (pure declared) ranges) = some h ∧
      h.segments = Segment.normalize
        (.plain ": " :: left.segments form ++ .plain sign :: right.segments form) ∧
      h.text = ": " ++ left.render form ++ sign ++ right.render form ∧
      (left.render form = right.render form ↔ left.render .short = right.render .short ∧
        left.render .qualified = right.render .qualified) ∧
      (form = .qualified ↔ left.render .short = right.render .short ∧
        left.render .qualified ≠ right.render .qualified)) := by
  have hnone : Hint.comparison ranges left sign right = none ↔ left = right :=
    Hint.ite_afterRanges_eq_none_iff.trans (or_iff_right hr)
  rw [hp.hint]
  refine ⟨hnone, fun hne => ?_⟩
  obtain ⟨h, hsome⟩ := Option.ne_none_iff_exists'.1 (mt hnone.1 hne)
  obtain ⟨-, hshows⟩ := Hint.comparison_shows.1 hsome
  have htext := Hint.text_comparison hsome
  rw [Ty.pairForm_names] at htext
  exact ⟨left.formAmong [right], h, hsome, hshows.segments_eq, htext, left.render_pair_iff right,
    left.formAmong_pair_iff right⟩

/-- Lists of two packages are told apart by them; an ill-formed type and a class that cannot be
resolved read the same in every form. -/
theorem compared_apart_lists :
    let reported := Ty.applied "kotlin.List" [.exactly (.ofShape (.parameter "T"))]
    let actual := Ty.applied "kotlin.List" [.exactly (.simple "kotlin.Int")]
    let expected := Ty.applied "java.List" [.exactly (.simple "kotlin.Int")]
    let unresolved := Ty.ofShape (.named none [])
    (∃ h, Id.run ((mismatch expected reported false).hint (pure (some actual)) [⟨3, 7⟩]) = some h ∧
      h.text = ": kotlin.List<kotlin.Int> ⇏ java.List<kotlin.Int>") ∧
    ∃ h, Id.run ((incompatible (.ofShape .error) unresolved).hint (pure none) [⟨3, 7⟩]) = some h ∧
      h.text = ": ?? ≠ ??" := by
  intro reported actual expected unresolved
  have hr : [(⟨3, 7⟩ : Span)] ≠ [] := List.cons_ne_nil _ _
  constructor
  · have hp : Compares (some actual) (.mismatch expected reported false) actual " ⇏ " expected :=
      .mismatch expected reported
    obtain ⟨form, h, hsome, -, htext, -, hform⟩ := (compared_apart hp hr).2 (by decide)
    obtain rfl := hform.2 (by decide)
    exact ⟨h, hsome, htext.trans (by decide)⟩
  · have hp : Compares none (.incompatible (.ofShape .error) unresolved) (.ofShape .error) " ≠ "
        unresolved := .incompatible _ _
    obtain ⟨form, h, hsome, -, htext, -⟩ := (compared_apart hp hr).2 (by decide)
    refine ⟨h, hsome, htext.trans ?_⟩
    cases form <;> rfl

/-! ## All problems -/

/-- Words for nullability make one plain segment. -/
theorem normalize_nullability (actual expected : Ty) :
    Segment.normalize [.plain ": ", .plain actual.nullabilityLabel, .plain " ⇏ ",
      .plain expected.nullabilityLabel] =
      [.plain (": " ++ actual.nullabilityLabel ++ " ⇏ " ++ expected.nullabilityLabel)] := by
  unfold Ty.nullabilityLabel
  cases actual.nullable <;> cases expected.nullable <;> rfl

theorem run_hint {σ : Type} (ask : StateM σ (Option Ty)) (ranges : List Span) (p : Problem)
    (s : σ) :
    ((p.hint ask ranges).run s).1 = Id.run (p.hint (pure (ask.run s).1) ranges) := by
  cases p with
  | mismatch expected actual only => cases only <;> rfl
  | _ => rfl

/-- **The hint of a problem.** The declared type is asked for once by a mismatch that is not by
nullability alone, with or without ranges, and not at all by any other problem. There is no hint for
one of the reasons of `Silent`. Otherwise the hint stands where `Writes` says and shows the normal
form of what is written; words for nullability make a single segment that leads nowhere. -/
theorem hint_spec {σ : Type} (ask : StateM σ (Option Ty)) (ranges : List Span) (p : Problem)
    (s : σ) :
    ((∃ expected actual, p = .mismatch expected actual false) →
      ((p.hint ask ranges).run s).2 = (ask.run s).2) ∧
    ((∀ expected actual, p ≠ .mismatch expected actual false) →
      ((p.hint ask ranges).run s).2 = s) ∧
    (((p.hint ask ranges).run s).1 = none ↔ p.Silent (ask.run s).1 ranges) ∧
    (∀ h, ((p.hint ask ranges).run s).1 = some h ↔
      ∃ side written, p.Writes (ask.run s).1 side written ∧ h.Shows ranges side written) ∧
    ∀ expected actual h, p = .mismatch expected actual true →
      ((p.hint ask ranges).run s).1 = some h → h.segments =
        [.plain (": " ++ actual.nullabilityLabel ++ " ⇏ " ++ expected.nullabilityLabel)] := by
  rw [run_hint]
  refine ⟨?_, fun hp => ?_, hint_eq_none_iff, fun h => hint_eq_some_iff, ?_⟩
  · rintro ⟨expected, actual, rfl⟩
    rfl
  · cases p with
    | mismatch expected actual only =>
      cases only with
      | true => rfl
      | false => exact absurd rfl (hp expected actual)
    | _ => rfl
  · rintro expected actual h rfl hsome
    obtain ⟨-, hshows⟩ := Hint.nullability_shows.1 hsome
    rw [hshows.segments_eq, normalize_nullability]

/-- A mismatch asks for the declared type also where there is no place for a hint, and shows it
where there is one. By nullability alone, it does not ask. -/
theorem hint_spec_mismatch :
    let int := Ty.simple "kotlin.Int"
    let ask : StateM Nat (Option Ty) := modifyGet fun asked => (some int, asked + 1)
    let reported := Ty.ofShape (.parameter "T")
    let mismatch (only : Bool) (ranges : List Span) :=
      ((mismatch (int.withNullable true) reported only).hint ask ranges).run 0
    mismatch false [] = (none, 1) ∧
    mismatch false [⟨3, 7⟩] = (some ⟨7, .after, [.plain ": ", .link "Int" "kotlin.Int",
      .plain " ⇏ ", .link "Int" "kotlin.Int", .plain "?"]⟩, 1) ∧
    ∃ h, mismatch true [⟨3, 7⟩] = (some h, 0) ∧
      h.segments = [.plain ": non-nullable ⇏ nullable"] := by
  intro int ask reported mismatch
  have hspec (only : Bool) (ranges : List Span) :=
    hint_spec ask ranges (.mismatch (int.withNullable true) reported only) 0
  refine ⟨?_, ?_, ?_⟩
  · obtain ⟨hasked, -, hnone, -⟩ := hspec false []
    exact Prod.ext (hnone.2 (.noRanges rfl)) (hasked ⟨_, _, rfl⟩)
  · obtain ⟨hasked, -, -, hsome, -⟩ := hspec false [⟨3, 7⟩]
    have hcompares : Compares (some int) (.mismatch (int.withNullable true) reported false) int
        " ⇏ " (int.withNullable true) := .mismatch (int.withNullable true) reported
    have hwrites := Writes.comparison hcompares (by decide)
    exact Prod.ext ((hsome _).2 ⟨_, _, hwrites, rfl, rfl, by decide⟩) (hasked ⟨_, _, rfl⟩)
  · obtain ⟨-, hasked, -, hsome, hwords⟩ := hspec true [⟨3, 7⟩]
    have hh := (hsome ⟨7, .after, _⟩).2 ⟨_, _, .nullability (by decide), rfl, rfl, rfl⟩
    exact ⟨_, Prod.ext hh (hasked (by simp)), hwords _ _ _ rfl hh⟩

-- the text after a name and the text between two types are one segment
example : Id.run ((ambiguousType [.applied "p.Box" [.star], .simple "a.Run", .simple "b.Run"]).hint
      (pure none) [⟨3, 7⟩, ⟨9, 12⟩]) =
    some ⟨12, .after, [.plain "<", .link "Box" "p.Box", .plain "<*> or ", .link "a.Run" "a.Run",
      .plain " or ", .link "b.Run" "b.Run", .plain ">"]⟩ := by decide

end Problem

end Inlay
