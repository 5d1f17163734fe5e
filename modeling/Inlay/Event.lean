import Inlay.Overload.Table
import Inlay.Problem.Basic

/-!
# Events

What a scan writes to its log. Each event has a level, a message and named values; a scan itself
shows in the log as a span that is opened, entered and left.
-/

namespace Inlay

/-- How much detail an event belongs to. -/
inductive Level where
  | trace
  | debug
deriving DecidableEq, Repr

inductive LogValue where
  | text (s : String)
  | count (n : Nat)
deriving DecidableEq, Repr

/-- Something a scan has to tell: how many diagnostics an element has, what becomes of each of them,
and why a call is not explained. -/
inductive Event where
  | diagnostics (count : Nat)
  | withoutRanges (factory : String)
  | unexplained (factory : String) (why : Unexplained)
  | classified (factory problem : String)
  | noneExplainable (best : Nat)
  | tooMany (explainable bound : Nat)
  | discarded (best explainable : Nat)
deriving DecidableEq, Repr

namespace Event

def level : Event → Level
  | .diagnostics _ | .noneExplainable _ | .tooMany .. | .discarded .. => .debug
  | .withoutRanges _ | .unexplained .. | .classified .. => .trace

def message : Event → String
  | .diagnostics _ => "diagnostics"
  | .withoutRanges _ => "diagnostic without ranges"
  | .unexplained _ .unrecognized => "unrecognized diagnostic"
  | .unexplained _ .incomplete => "diagnostic payload incomplete"
  | .classified .. => "classified"
  | .noneExplainable _ => "no explainable overload candidates"
  | .tooMany .. => "too many overload candidates to explain"
  | .discarded .. => "best-ranked candidates were discarded"

/-- The values of an event by their names. -/
def fields : Event → List (String × LogValue)
  | .diagnostics count => [("count", .count count)]
  | .withoutRanges factory => [("factory", .text factory)]
  | .unexplained factory _ => [("factory", .text factory)]
  | .classified factory problem => [("factory", .text factory), ("problem", .text problem)]
  | .noneExplainable best => [("best_count", .count best)]
  | .tooMany count bound => [("count", .count count), ("bound", .count bound)]
  | .discarded best explainable =>
    [("best_count", .count best), ("explainable", .count explainable)]

/-- The event of reading a diagnostic: only a failure is worth one. -/
def ofReading (d : Diagnostic) : Except Unexplained Finding → List Event
  | .ok _ => []
  | .error why => [.unexplained d.factory why]

/-- The event of classifying a diagnostic. -/
def ofClassification (builtins : Builtins) (d : Diagnostic) : Event :=
  match Finding.ofDiagnostic d with
  | .ok finding => .classified finding.factory (Problem.ofFinding builtins finding).name
  | .error why => .unexplained d.factory why

/-- The event of a suppression. A missing label is passed over in silence. -/
def ofSuppression : Suppression → List Event
  | .noneExplainable best => [.noneExplainable best]
  | .tooMany explainable bound => [.tooMany explainable bound]
  | .discarded best explainable => [.discarded best explainable]
  | .unlabeled => []

/-- The event of analyzing a call: only a call that is not explained is worth one. -/
def ofAnalysis : Except Suppression (List Report) → List Event
  | .ok _ => []
  | .error why => ofSuppression why

end Event

/-- An entry of the log: the span of a scan is opened, entered or left, or there is an event. -/
inductive Record where
  | opened
  | entered
  | left
  | event (e : Event)
deriving DecidableEq, Repr

def Record.spanName : String := "collect_from_element"

end Inlay
