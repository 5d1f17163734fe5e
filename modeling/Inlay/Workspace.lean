import Inlay.Scan

/-!
# Workspaces

A host that holds everything in memory: elements with what is known about them, the configuration
and built-in types in force, a sink for hints that lasts, and the log of all scans. Elements are
addressed by their position, and an operation on a position without an element fails.
-/

namespace Inlay

/-- What is known about a source element; `extended` are the diagnostics of the checks that have to
be switched on. -/
structure Element where
  diagnostics : List Diagnostic
  extended : List Diagnostic
  candidates : List Candidate
  declaredType : Option Ty
deriving DecidableEq

/-- The elements of a source text, with the hints and the log of all scans so far. -/
structure Workspace where
  config : Config := .standard
  builtins : Builtins := .standard
  elements : List Element := []
  sink : List Hint := []
  records : List Record := []

namespace Workspace

/-- The answers that a workspace gives. -/
def host (ws : Workspace) : Host Element := fun e => {
  diagnostics := fun
    | .common => e.diagnostics
    | .extended => e.extended
    | .all => e.diagnostics ++ e.extended
  builtins := ws.builtins
  candidates := e.candidates
  declaredType := e.declaredType }

/-- Scans an element and leaves the sink alone. -/
def collect? (ws : Workspace) (i : Nat) : Option (Transcript × Workspace) := do
  let t := Host.collect ws.host ws.config (← ws.elements[i]?)
  return (t, { ws with records := ws.records ++ t.records })

/-- Scans an element and adds its hints to the sink. -/
def collectInto? (ws : Workspace) (i : Nat) : Option (Transcript × Workspace) := do
  let t := Host.collectInto ws.host ws.config (← ws.elements[i]?) ws.sink
  return (t, { ws with sink := t.hints, records := ws.records ++ t.records })

def addHint (ws : Workspace) (h : Hint) : Workspace := { ws with sink := ws.sink ++ [h] }

def addElement (ws : Workspace) (e : Element) : Workspace :=
  { ws with elements := ws.elements ++ [e] }

/-- Changes an element; gives the changed element too. -/
def update? (ws : Workspace) (i : Nat) (f : Element → Element) : Option (Element × Workspace) := do
  let e := f (← ws.elements[i]?)
  return (e, { ws with elements := ws.elements.set i e })

end Workspace

namespace Element

/-- Adds a diagnostic of the checks that always run. -/
def addDiagnostic (d : Diagnostic) (e : Element) : Element :=
  { e with diagnostics := e.diagnostics ++ [d] }

def withCandidates (cs : List Candidate) (e : Element) : Element := { e with candidates := cs }

def withDeclaredType (t : Option Ty) (e : Element) : Element := { e with declaredType := t }

end Element

end Inlay
