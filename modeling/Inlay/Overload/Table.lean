import Inlay.Config
import Inlay.Overload.Basic
import Inlay.Ty.Names

/-!
# The table of a call

Where no candidate of a call is applicable, the best of them are set side by side, argument by
argument: which candidates accept the argument, and what the others expect in its place. Types are
compared by their qualified names. An argument that every candidate accepts is left out.

A call that such a table cannot explain is suppressed as a whole (`Suppression`): no candidate can
be explained, there are more candidates than may be explained, some candidate of the best rank
cannot be explained, or one of those to explain has no label.

* `Overload.analyze`: the table of a call, or why there is none.
* `Overload.report?`: a row of the table.
-/

namespace Inlay

/-- What a candidate makes of an argument: the parameter has the type of the argument, or it
expects another one. -/
inductive Verdict where
  | accepted
  | rejected (expected : Ty)
deriving DecidableEq

namespace Verdict

/-- The verdict of a parameter on an argument with the given names. -/
def of (actual : Names) (expected : Ty) : Verdict :=
  if NameMatch.of actual expected.names = .exact then .accepted else .rejected expected

def isRejected : Verdict → Bool
  | .accepted => false
  | .rejected _ => true

/-- Whether the argument is turned down for a type that shares its short name. -/
def isConfusing (actual : Names) : Verdict → Bool
  | .accepted => false
  | .rejected expected => actual.clash expected.names

end Verdict

/-- The verdict of an explained candidate, with its position among those and its label. -/
structure LabeledVerdict where
  index : Nat
  label : String
  verdict : Verdict
deriving DecidableEq

/-- A row of the table: an argument that some candidate turns down, with the verdicts of all
candidates that take it. All types of a row are shown in one form. -/
structure Report where
  argument : Argument
  form : NameForm
  verdicts : List LabeledVerdict
deriving DecidableEq

/-- Why a call is not explained, with the numbers that decide it: `best` candidates have the best
rank, and `explainable` of them can be explained. -/
inductive Suppression where
  | noneExplainable (best : Nat)
  | tooMany (explainable bound : Nat)
  | discarded (best explainable : Nat)
  | unlabeled
deriving DecidableEq, Repr

/-- The names of an argument's type, with a placeholder for an unknown one. -/
def Argument.names (a : Argument) : Names :=
  match a.declaredType with
  | some t => t.names
  | none => ⟨placeholder, placeholder⟩

namespace Overload

/-- The verdicts on an argument of the candidates that take it. -/
def verdicts (labels : List String) (columns : List (List Binding)) (a : Argument) :
    List LabeledVerdict :=
  (columns.zip labels).zipIdx.filterMap fun ((bindings, label), index) =>
    (Binding.parameter? bindings a.id).map fun p => ⟨index, label, .of a.names p.type⟩

/-- The row of an argument, if some candidate turns it down. -/
def report? (labels : List String) (columns : List (List Binding)) (a : Argument) :
    Option Report :=
  let vs := verdicts labels columns a
  if vs.any (·.verdict.isRejected) then
    some ⟨a, .qualifiedIf (vs.any (·.verdict.isConfusing a.names)), vs⟩
  else none

def best (candidates : List Candidate) : List Candidate := candidates.filter (·.bestRanked)

/-- The bindings of the candidates that are explained: those of the best rank that can be. -/
def columns (candidates : List Candidate) : List (List Binding) :=
  (best candidates).filterMap (·.explainable?)

/-- The labels of the first `n` candidates, if all of them have one. -/
def labels? (config : Config) (n : Nat) : Option (List String) := (List.range n).mapM config.label?

/-- The table of a call. The rows follow the bindings of the first explained candidate. -/
def analyze (config : Config) (candidates : List Candidate) : Except Suppression (List Report) :=
  let cols := columns candidates
  let bestCount := (best candidates).length
  match cols with
  | [] => .error (.noneExplainable bestCount)
  | first :: _ =>
    if config.effectiveBound < cols.length then
      .error (.tooMany cols.length config.effectiveBound)
    else if cols.length < bestCount then .error (.discarded bestCount cols.length)
    else
      match labels? config cols.length with
      | none => .error .unlabeled
      | some labels => .ok (first.filterMap fun b => report? labels cols b.argument)

end Overload

end Inlay
