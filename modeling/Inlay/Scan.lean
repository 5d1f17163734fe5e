import Inlay.Event
import Inlay.Overload.Hint

/-!
# Scanning an element

A scan goes through the diagnostics of a source element and adds the hints that explain them to a
sink. It asks the host for what it needs and no more, and it keeps a log.

The scan is a computation over a `Transcript`, the sink together with the questions asked and the
log kept so far. What a host knows about an element are its `Answers`, and a scan learns them only
by asking. Nothing is remembered between two questions, so the answers may change with every
question that is asked (`Session`); a `Host` is the common case where they stay the same.

* `Scan.classify`: reads a diagnostic once, for the log and for its problem.
* `Scan.diagnostic`: what is done for one diagnostic.
* `Scan.element`: the scan of an element.
* `Session.collectInto`: what a scan leaves behind.
* `Host.collect`, `Host.collectInto`: the same for a host whose answers stay the same.
-/

namespace Inlay

/-- A question to the host about an element. -/
inductive Query where
  | diagnostics (checkers : CheckerSet)
  | builtins
  | candidates
  | declaredType
deriving DecidableEq, Repr

/-- What a host answers about one element. An element that is not a call has no candidates, and one
that is not an expression has no declared type. -/
structure Answers where
  diagnostics : CheckerSet → List Diagnostic
  builtins : Builtins
  candidates : List Candidate
  declaredType : Option Ty

/-- The answers about one element in the course of a scan, by the questions asked before. -/
abbrev Session := List Query → Answers

/-- The answers of a host, for elements of type `ε`. -/
abbrev Host (ε : Type) := ε → Answers

/-- What a scan leaves behind: the sink, the questions and the log, each in order. -/
structure Transcript where
  hints : List Hint := []
  queries : List Query := []
  records : List Record := []
deriving DecidableEq

abbrev Scan := StateM Transcript

namespace Scan

def emit (h : Hint) : Scan Unit := modify fun t => { t with hints := t.hints ++ [h] }

def note (q : Query) : Scan Unit := modify fun t => { t with queries := t.queries ++ [q] }

def record (r : Record) : Scan Unit := modify fun t => { t with records := t.records ++ [r] }

def log (e : Event) : Scan Unit := record (.event e)

def logAll (es : List Event) : Scan Unit :=
  modify fun t => { t with records := t.records ++ es.map .event }

/-- The answers in force. -/
def inForce (session : Session) : Scan Answers := return session (← get).queries

def askDiagnostics (session : Session) (checkers : CheckerSet) : Scan (List Diagnostic) := do
  let answers ← inForce session
  note (.diagnostics checkers)
  return answers.diagnostics checkers

def askBuiltins (session : Session) : Scan Builtins := do
  let answers ← inForce session
  note .builtins
  return answers.builtins

def askCandidates (session : Session) : Scan (List Candidate) := do
  let answers ← inForce session
  note .candidates
  return answers.candidates

def askDeclaredType (session : Session) : Scan (Option Ty) := do
  let answers ← inForce session
  note .declaredType
  return answers.declaredType

@[simp] theorem run_emit (h : Hint) (t : Transcript) :
    (emit h).run t = pure ((), { t with hints := t.hints ++ [h] }) := rfl

@[simp] theorem run_note (q : Query) (t : Transcript) :
    (note q).run t = pure ((), { t with queries := t.queries ++ [q] }) := rfl

@[simp] theorem run_record (r : Record) (t : Transcript) :
    (record r).run t = pure ((), { t with records := t.records ++ [r] }) := rfl

@[simp] theorem run_log (e : Event) (t : Transcript) :
    (log e).run t = pure ((), { t with records := t.records ++ [.event e] }) := rfl

@[simp] theorem run_logAll (es : List Event) (t : Transcript) :
    (logAll es).run t = pure ((), { t with records := t.records ++ es.map .event }) := rfl

@[simp] theorem run_askDiagnostics (session : Session) (checkers : CheckerSet) (t : Transcript) :
    (askDiagnostics session checkers).run t =
      pure ((session t.queries).diagnostics checkers,
        { t with queries := t.queries ++ [.diagnostics checkers] }) := rfl

@[simp] theorem run_askBuiltins (session : Session) (t : Transcript) :
    (askBuiltins session).run t =
      pure ((session t.queries).builtins, { t with queries := t.queries ++ [.builtins] }) := rfl

@[simp] theorem run_askCandidates (session : Session) (t : Transcript) :
    (askCandidates session).run t =
      pure ((session t.queries).candidates, { t with queries := t.queries ++ [.candidates] }) := rfl

@[simp] theorem run_askDeclaredType (session : Session) (t : Transcript) :
    (askDeclaredType session).run t =
      pure ((session t.queries).declaredType,
        { t with queries := t.queries ++ [.declaredType] }) := rfl

/-- Hints added one after the other stand in the sink in their order. -/
@[simp] theorem run_forM_emit (hs : List Hint) (t : Transcript) :
    (forM hs emit).run t = pure ((), { t with hints := t.hints ++ hs }) := by
  induction hs generalizing t with
  | nil =>
    rw [List.forM_nil, List.append_nil]
    rfl
  | cons h hs ih =>
    rw [List.forM_cons, StateT.run_bind, run_emit, pure_bind, ih, List.append_assoc]
    rfl

/-- Explains a call without applicable candidates. -/
def call (config : Config) (candidates : List Candidate) : Scan Unit := do
  match Overload.analyze config candidates with
  | .ok reports => forM (reports.flatMap Report.hints) emit
  | .error why => logAll (Event.ofSuppression why)

/-- Reads a diagnostic, and logs why nothing is read from it. -/
def read (d : Diagnostic) : Scan (Option Finding) := do
  let reading := Finding.ofDiagnostic d
  logAll (Event.ofReading d reading)
  return reading.toOption

/-- The problem that a diagnostic reports, with a line about it in the log. -/
def classify (builtins : Builtins) (d : Diagnostic) : Scan (Option Problem) := do
  match ← read d with
  | none => return none
  | some finding =>
    let p := Problem.ofFinding builtins finding
    log (.classified finding.factory p.name)
    return some p

@[simp] theorem run_read (d : Diagnostic) (t : Transcript) :
    (read d).run t = pure ((Finding.ofDiagnostic d).toOption,
      { t with records := t.records ++ (Event.ofReading d (Finding.ofDiagnostic d)).map .event }) :=
  rfl

/-- One reading gives the problem and the event. -/
@[simp] theorem run_classify (builtins : Builtins) (d : Diagnostic) (t : Transcript) :
    (classify builtins d).run t = pure ((Problem.classify builtins d).toOption,
      { t with records := t.records ++ [.event (.ofClassification builtins d)] }) := by
  unfold classify Problem.classify Event.ofClassification
  rw [StateT.run_bind, run_read, pure_bind]
  cases Finding.ofDiagnostic d with
  | error why => rfl
  | ok finding => simp [Event.ofReading, Except.map, Except.toOption]

variable (session : Session) (config : Config)

/-- Explains a problem at the given ranges. -/
def problem (ranges : List Span) : Problem → Scan Unit
  | .noneApplicable _ => do
    let candidates ← askCandidates session
    call config candidates
  | p => do
    match ← p.hint (askDeclaredType session) ranges with
    | some h => emit h
    | none => return

/-- Explains a diagnostic, unless it speaks of no source text. -/
def diagnostic (d : Diagnostic) : Scan Unit := do
  if d.ranges.isEmpty then log (.withoutRanges d.factory)
  else
    let builtins ← askBuiltins session
    match ← classify builtins d with
    | some p => problem session config d.ranges p
    | none => return

/-- Explains the diagnostics of an element. -/
def element : Scan Unit := do
  record .opened
  record .entered
  let diagnostics ← askDiagnostics session .common
  log (.diagnostics diagnostics.length)
  forM diagnostics (diagnostic session config)
  record .left

end Scan

/-- Scans the element of a session with the given sink. -/
def Session.collectInto (session : Session) (config : Config) (sink : List Hint) : Transcript :=
  ((Scan.element session config).run { hints := sink }).2

/-- Scans an element with the given sink. -/
def Host.collectInto {ε : Type} (host : Host ε) (config : Config) (e : ε) (sink : List Hint) :
    Transcript :=
  Session.collectInto (fun _ => host e) config sink

/-- Scans an element: its hints, in the order of the diagnostics. -/
def Host.collect {ε : Type} (host : Host ε) (config : Config) (e : ε) : Transcript :=
  host.collectInto config e []

end Inlay
