import Inlay.Overload.Hint
import Inlay.Proofs.TableSpec
import Inlay.Proofs.Walk

/-!
# The texts of hints

A hint is composed of pieces, and its text is that of the pieces one after the other
(`Hint.text_compose`), however these were cut into segments. From this follow the texts of all kinds
of hints that show types: comparisons, alternatives, and the rows of the table of a call.

`Ty.formAmong` is the form in which a type is shown among others.
-/

namespace Inlay

/-! ## Composition -/

namespace Piece

/-- The text of a piece. -/
def shown : Piece → String
  | .text s => s
  | .type t form => t.render form

theorem content_write (p : Piece) (d : Draft) : (p.write d).content = d.content ++ p.shown := by
  cases p with
  | text s => exact d.content_text s
  | type t form => exact d.content_type t form

theorem content_foldl (pieces : List Piece) (d : Draft) :
    (pieces.foldl (fun d p => p.write d) d).content =
      d.content ++ String.join (pieces.map shown) := by
  induction pieces generalizing d with
  | nil => simp
  | cons p pieces ih =>
    rw [List.foldl_cons, ih, content_write, List.map_cons, String.join_cons, String.append_assoc]

end Piece

/-! ## Types next to each other -/

namespace Ty

/-- The form in which a type is shown among others: qualified if one of them has the same short text
and another qualified one. -/
def formAmong (others : List Ty) (t : Ty) : NameForm :=
  if ∃ u ∈ others, t.render .short = u.render .short ∧ t.render .qualified ≠ u.render .qualified
  then .qualified else .short

theorem qualifiedIf_clash (others : List Ty) (t : Ty) :
    NameForm.qualifiedIf ((others.map names).any t.names.clash) = t.formAmong others := by
  unfold NameForm.qualifiedIf formAmong
  apply if_congr _ rfl rfl
  simp [Names.clash_iff, names]

theorem pairForm_names (left right : Ty) :
    Names.pairForm left.names right.names = left.formAmong [right] := by
  rw [← qualifiedIf_clash]
  simp [Names.pairForm, NameMatch.form, Names.clash]

theorem listForms_names (types : List Ty) :
    Names.listForms (types.map names) = types.map (formAmong types) := by
  rw [Names.listForms_eq_map, List.map_map]
  exact List.map_congr_left fun t _ => qualifiedIf_clash types t

end Ty

namespace Hint

theorem text_compose (offset : UInt32) (side : Side) (pieces : List Piece) :
    text ⟨offset, side, Piece.compose pieces⟩ = String.join (pieces.map Piece.shown) := by
  have hcontent := Piece.content_foldl pieces Draft.empty
  rw [show Draft.empty.content = "" from rfl, String.empty_append] at hcontent
  exact hcontent

/-! ## Comparisons and alternatives -/

/-- The texts under which types are offered as alternatives. -/
def alternativeTexts (types : List Ty) : List String :=
  List.zipWith (fun t form => t.render form) types (Names.listForms (types.map Ty.names))

theorem alternativeTexts_eq_map (types : List Ty) :
    alternativeTexts types = types.map fun t => t.render (t.formAmong types) := by
  simp [alternativeTexts, Ty.listForms_names, List.zipWith_map_right]

theorem afterRanges_eq_some_iff {ranges : List Span} {pieces : List Piece} {h : Hint} :
    afterRanges ranges pieces = some h ↔
      ∃ offset, Span.after? ranges = some offset ∧ h = .after offset (Piece.compose pieces) := by
  simp [afterRanges, eq_comm]

theorem join_intersperse (sep : String) : ∀ pieces : List Piece,
    String.join ((pieces.intersperse (.text sep)).map Piece.shown) =
      sep.intercalate (pieces.map Piece.shown)
  | [] => by simp
  | [p] => by simp
  | p :: q :: pieces => by
    have ih := join_intersperse sep (q :: pieces)
    rw [List.intersperse_cons_cons]
    simp only [List.map_cons, String.join_cons] at ih ⊢
    rw [ih, String.intercalate_cons_cons, String.append_assoc]
    rfl

/-- The text of a hint that offers alternatives. -/
theorem text_alternatives {ranges : List Span} {types : List Ty} {h : Hint}
    (hh : alternatives ranges types = some h) :
    h.text = "<" ++ " or ".intercalate (alternativeTexts types) ++ ">" := by
  unfold alternatives at hh
  split at hh
  · cases hh
  · obtain ⟨offset, -, rfl⟩ := afterRanges_eq_some_iff.1 hh
    rw [Hint.after, text_compose, List.map_append, List.map_cons, List.cons_append,
      String.join_cons, String.join_append, join_intersperse, List.map_zipWith]
    simp [Piece.shown, alternativeTexts, String.append_assoc]

theorem comparison_eq_some_iff {ranges : List Span} {left right : Ty} {sign : String} {h : Hint} :
    comparison ranges left sign right = some h ↔
      left ≠ right ∧ ∃ offset, Span.after? ranges = some offset ∧
        h = .after offset (Piece.compose
          [.text ": ", .type left (Names.pairForm left.names right.names), .text sign,
            .type right (Names.pairForm left.names right.names)]) := by
  unfold comparison
  by_cases hne : left = right
  · simp [hne]
  · rw [if_neg hne, afterRanges_eq_some_iff]
    simp only [ne_eq, hne, not_false_eq_true, true_and]

/-- The text of a hint that compares two types: both are shown in the form that is common to
them. -/
theorem text_comparison {ranges : List Span} {left right : Ty} {sign : String} {h : Hint}
    (hh : comparison ranges left sign right = some h) :
    h.text = ": " ++ left.render (Names.pairForm left.names right.names) ++ sign ++
      right.render (Names.pairForm left.names right.names) := by
  obtain ⟨-, offset, -, rfl⟩ := comparison_eq_some_iff.1 hh
  rw [Hint.after, text_compose]
  simp [Piece.shown, String.append_assoc]

end Hint

/-! ## Rows -/

/-- The text of a verdict. -/
def LabeledVerdict.shown (form : NameForm) (v : LabeledVerdict) : String :=
  "⟦" ++ v.label ++ "⟧" ++
    match v.verdict with
    | .accepted => " ✓"
    | .rejected expected => " ⇏ " ++ expected.render form

theorem LabeledVerdict.join_pieces (form : NameForm) (v : LabeledVerdict) :
    String.join ((v.pieces form).map Piece.shown) = v.shown form := by
  unfold LabeledVerdict.pieces LabeledVerdict.shown
  cases v.verdict <;> simp [Piece.shown, Hint.doesNotConform, String.append_assoc]

theorem LabeledVerdict.shown_rejected {v : LabeledVerdict} {expected : Ty}
    (h : v.verdict = .rejected expected) (form : NameForm) :
    v.shown form = "⟦" ++ v.label ++ "⟧" ++ " ⇏ " ++ expected.render form := by
  rw [LabeledVerdict.shown, h]
  exact String.append_assoc.symm

theorem Argument.join_pieces (form : NameForm) (a : Argument) :
    String.join ((a.pieces form).map Piece.shown) = ": " ++ a.shown form := by
  unfold Argument.pieces Argument.shown
  cases a.declaredType <;> simp [Piece.shown, placeholder]

/-- The hints of a row: the type of the argument, then a verdict for each candidate. -/
theorem Report.map_text_hints (r : Report) : r.hints.map Hint.text =
    (": " ++ r.argument.shown r.form) :: r.verdicts.map (·.shown r.form) := by
  rw [Report.hints, List.map_map, List.map_cons, List.map_map]
  congr 1
  · rw [Function.comp_apply, Hint.after, Hint.text_compose, Argument.join_pieces]
  · refine List.map_congr_left fun v _ => ?_
    rw [Function.comp_apply, Function.comp_apply, Hint.after, Hint.text_compose,
      LabeledVerdict.join_pieces]

end Inlay
