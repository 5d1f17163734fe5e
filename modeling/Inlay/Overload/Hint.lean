import Inlay.Overload.Table
import Inlay.Problem.Hint

/-!
# The hints of a call

Each row of the table of a call becomes a group of hints behind the argument: first the type of the
argument, then what each candidate makes of it.
-/

namespace Inlay

/-- The text of a verdict: the label of the candidate in brackets, and a check mark or the type it
expects. -/
def LabeledVerdict.pieces (form : NameForm) (v : LabeledVerdict) : List Piece :=
  [.text "⟦", .text v.label, .text "⟧"] ++
    match v.verdict with
    | .accepted => [.text " ✓"]
    | .rejected expected => [.text Hint.doesNotConform, .type expected form]

/-- The text of an argument: its type, or a placeholder. -/
def Argument.pieces (form : NameForm) (a : Argument) : List Piece :=
  [.text ": ",
    match a.declaredType with
    | some t => .type t form
    | none => .text placeholder]

/-- The hints of a row, all of them behind the argument. -/
def Report.hints (r : Report) : List Hint :=
  (r.argument.pieces r.form :: r.verdicts.map (·.pieces r.form)).map fun pieces =>
    .after r.argument.span.stop (Piece.compose pieces)

/-- The hints of a call; a call that is not explained has none. -/
def Overload.hints (config : Config) (candidates : List Candidate) : List Hint :=
  match analyze config candidates with
  | .ok reports => reports.flatMap Report.hints
  | .error _ => []

end Inlay
