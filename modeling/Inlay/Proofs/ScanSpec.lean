import Inlay.Workspace

/-!
# What a scan does

A scan treats the diagnostics of an element one after the other and independently of each other.
What one of them adds to the transcript is said without the scan: hints (`Scan.hintsOf`), questions
(`Scan.queriesOf`) and events in the log (`Scan.eventsOf`), each by the answers that are in force
when the diagnostic is reached (`Session.seen`).

* `Scan.run_diagnostic`: what is done for one diagnostic (`Scan.step`).
* `Scan.run_forM_diagnostic`: what is done for a list of diagnostics (the run).
* `Scan.foldl_step`: what they add, by the answers that each of them meets (`Session.met`).
* `Session.collectInto_eq`: the transcript of a scan.
* `Host.collectInto_eq`: the same where the answers do not change.
-/

namespace Inlay

/-- The answers that a diagnostic meets, by the questions asked before it: the first one is for the
types that the language implies, and any other comes after that one. -/
def Session.seen (session : Session) (asked : List Query) : Answers :=
  { session (asked ++ [.builtins]) with builtins := (session asked).builtins }

theorem Session.builtins_seen (session : Session) (asked : List Query) :
    (session.seen asked).builtins = (session asked).builtins := rfl

namespace Scan

section
variable (config : Config) (answers : Answers)

/-- The hints of a problem at some ranges. -/
def hintsOfProblem (ranges : List Span) : Problem → List Hint
  | .noneApplicable _ => Overload.hints config answers.candidates
  | p => (Id.run (p.hint (pure answers.declaredType) ranges)).toList

/-- The hints that a diagnostic adds to the sink. -/
def hintsOf (d : Diagnostic) : List Hint :=
  if d.ranges = [] then []
  else
    match Problem.classify answers.builtins d with
    | .ok p => hintsOfProblem config answers d.ranges p
    | .error _ => []

/-- The question that a problem leads to. -/
def queriesOfProblem : Problem → List Query
  | .noneApplicable _ => [.candidates]
  | .mismatch _ _ false => [.declaredType]
  | _ => []

/-- The questions that a diagnostic leads to. -/
def queriesOf (d : Diagnostic) : List Query :=
  if d.ranges = [] then []
  else
    .builtins ::
      match Problem.classify answers.builtins d with
      | .ok p => queriesOfProblem p
      | .error _ => []

/-- The events of a problem. -/
def eventsOfProblem : Problem → List Event
  | .noneApplicable _ => Event.ofAnalysis (Overload.analyze config answers.candidates)
  | _ => []

/-- The events of a diagnostic. -/
def eventsOf (d : Diagnostic) : List Event :=
  if d.ranges = [] then [.withoutRanges d.factory]
  else
    .ofClassification answers.builtins d ::
      match Problem.classify answers.builtins d with
      | .ok p => eventsOfProblem config answers p
      | .error _ => []

end

theorem hintsOfProblem_seen (config : Config) (session : Session) (asked : List Query)
    (ranges : List Span) (p : Problem) : hintsOfProblem config (session.seen asked) ranges p =
      hintsOfProblem config (session (asked ++ [.builtins])) ranges p := by
  cases p <;> rfl

theorem eventsOfProblem_seen (config : Config) (session : Session) (asked : List Query)
    (p : Problem) : eventsOfProblem config (session.seen asked) p =
      eventsOfProblem config (session (asked ++ [.builtins])) p := by
  cases p <;> rfl

/-- The transcript with what was added to it. -/
def extend (t : Transcript) (hints : List Hint) (queries : List Query) (events : List Event) :
    Transcript :=
  ⟨t.hints ++ hints, t.queries ++ queries, t.records ++ events.map .event⟩

section
variable (config : Config) (session : Session)

theorem run_call (candidates : List Candidate) (t : Transcript) :
    (call config candidates).run t = pure ((), extend t (Overload.hints config candidates) []
      (Event.ofAnalysis (Overload.analyze config candidates))) := by
  unfold call Overload.hints
  cases Overload.analyze config candidates with
  | ok reports =>
    rw [run_forM_emit]
    simp [extend, Event.ofAnalysis]
  | error why =>
    rw [run_logAll]
    simp [extend, Event.ofAnalysis]

/-- The hint of a problem is the one for the declared type, which is asked for where it matters. -/
theorem run_hint (ranges : List Span) {p : Problem} (hp : ∀ cs, p ≠ .noneApplicable cs)
    (t : Transcript) : (p.hint (askDeclaredType session) ranges).run t =
      pure (Id.run (p.hint (pure (session t.queries).declaredType) ranges),
        extend t [] (queriesOfProblem p) []) := by
  cases p with
  | mismatch expected actual only => cases only <;> simp [Problem.hint, extend, queriesOfProblem]
  | noneApplicable cs => exact absurd rfl (hp cs)
  | _ => simp [Problem.hint, extend, queriesOfProblem]

theorem run_problem_other (ranges : List Span) {p : Problem} (hp : ∀ cs, p ≠ .noneApplicable cs)
    (t : Transcript) : (problem session config ranges p).run t =
      pure ((), extend t
        (Id.run (p.hint (pure (session t.queries).declaredType) ranges)).toList
        (queriesOfProblem p) []) := by
  -- all problems but calls without applicable candidates share one branch
  have hdef : problem session config ranges p =
      p.hint (askDeclaredType session) ranges >>= fun hint? => hint?.elim (pure ()) emit := by
    cases p with
    | noneApplicable cs => exact absurd rfl (hp cs)
    | _ => exact bind_congr fun hint? => by cases hint? <;> rfl
  rw [hdef, StateT.run_bind, run_hint session ranges hp, pure_bind]
  cases Id.run (p.hint (pure (session t.queries).declaredType) ranges) with
  | none => rfl
  | some h =>
    rw [Option.elim_some, run_emit]
    simp [extend]

theorem run_problem (ranges : List Span) (p : Problem) (t : Transcript) :
    (problem session config ranges p).run t =
      pure ((), extend t (hintsOfProblem config (session t.queries) ranges p) (queriesOfProblem p)
        (eventsOfProblem config (session t.queries) p)) := by
  cases p with
  | noneApplicable cs =>
    rw [problem, StateT.run_bind, run_askCandidates, pure_bind, run_call]
    simp [extend, hintsOfProblem, queriesOfProblem, eventsOfProblem]
  | _ => exact run_problem_other config session ranges (fun _ h => by cases h) t

/-- The transcript after one more diagnostic. -/
def step (t : Transcript) (d : Diagnostic) : Transcript :=
  extend t (hintsOf config (session.seen t.queries) d) (queriesOf (session.seen t.queries) d)
    (eventsOf config (session.seen t.queries) d)

/-- **The step**: what is done for one diagnostic. -/
theorem run_diagnostic (d : Diagnostic) (t : Transcript) :
    (diagnostic session config d).run t = pure ((), step config session t d) := by
  unfold diagnostic step hintsOf queriesOf eventsOf
  by_cases hr : d.ranges = []
  · simp [hr, extend]
  · have hr' : ¬ d.ranges.isEmpty = true := by simpa using hr
    rw [if_neg hr', if_neg hr, if_neg hr, if_neg hr, StateT.run_bind, run_askBuiltins, pure_bind,
      StateT.run_bind, run_classify, pure_bind, Session.builtins_seen]
    cases Problem.classify (session t.queries).builtins d with
    | error why => simp [extend, Except.toOption]
    | ok p =>
      dsimp only [Except.toOption]
      rw [run_problem, hintsOfProblem_seen, eventsOfProblem_seen]
      simp [extend]

/-- **The run**: what is done for a list of diagnostics. -/
theorem run_forM_diagnostic : ∀ (ds : List Diagnostic) (t : Transcript),
    (forM ds (diagnostic session config)).run t = pure ((), ds.foldl (step config session) t)
  | [], _ => rfl
  | d :: ds, t => by
    rw [List.forM_cons, StateT.run_bind, run_diagnostic, pure_bind, run_forM_diagnostic ds,
      List.foldl_cons]

end

end Scan

/-- The diagnostics, each with the answers that it meets after the questions asked before it. -/
def Session.met (session : Session) : List Query → List Diagnostic → List (Answers × Diagnostic)
  | _, [] => []
  | asked, d :: ds => (session.seen asked, d) ::
      session.met (asked ++ Scan.queriesOf (session.seen asked) d) ds

theorem Session.map_snd_met (session : Session) (asked : List Query) (ds : List Diagnostic) :
    (session.met asked ds).map Prod.snd = ds := by
  induction ds generalizing asked with
  | nil => rfl
  | cons d ds ih => rw [Session.met, List.map_cons, ih]

theorem Session.met_steady (answers : Answers) (asked : List Query) (ds : List Diagnostic) :
    Session.met (fun _ => answers) asked ds = ds.map (answers, ·) := by
  induction ds generalizing asked with
  | nil => rfl
  | cons d ds ih =>
    rw [Session.met, List.map_cons, ih]
    rfl

namespace Scan

/-- What a list of diagnostics adds to the transcript, by the answers that each of them meets. -/
theorem foldl_step (config : Config) (session : Session) (ds : List Diagnostic) (t : Transcript) :
    ds.foldl (step config session) t =
      let met := session.met t.queries ds
      extend t (met.flatMap fun x => hintsOf config x.1 x.2)
        (met.flatMap fun x => queriesOf x.1 x.2)
        (met.flatMap fun x => eventsOf config x.1 x.2) := by
  induction ds generalizing t with
  | nil => simp [Session.met, extend]
  | cons d ds ih =>
    rw [List.foldl_cons, ih]
    simp [Session.met, step, extend]

/-- Where the answers do not change, the diagnostics add to the transcript independently. -/
theorem foldl_step_steady (config : Config) (answers : Answers) (ds : List Diagnostic)
    (t : Transcript) :
    ds.foldl (step config fun _ => answers) t =
      extend t (ds.flatMap (hintsOf config answers)) (ds.flatMap (queriesOf answers))
        (ds.flatMap (eventsOf config answers)) := by
  rw [foldl_step, Session.met_steady]
  simp only [List.flatMap_map]

end Scan

/-- The transcript of a scan: the question for the diagnostics, and then a step for each of them,
inside the span of the scan. -/
theorem Session.collectInto_eq (session : Session) (config : Config) (sink : List Hint) :
    session.collectInto config sink =
      let ds := (session []).diagnostics .common
      let t := ds.foldl (Scan.step config session)
        { hints := sink
          queries := [.diagnostics .common]
          records := [.opened, .entered, .event (.diagnostics ds.length)] }
      { t with records := t.records ++ [.left] } := by
  unfold Session.collectInto Scan.element
  simp only [StateT.run_bind, Scan.run_record, Scan.run_askDiagnostics, Scan.run_log,
    Scan.run_forM_diagnostic, pure_bind]
  rfl

/-- The transcript of a scan: the sink with the hints of the diagnostics, the questions they lead to
after the one for the diagnostics themselves, and their events inside the span of the scan. -/
theorem Host.collectInto_eq {ε : Type} (host : Host ε) (config : Config) (e : ε)
    (sink : List Hint) :
    host.collectInto config e sink =
      let ds := (host e).diagnostics .common
      { hints := sink ++ ds.flatMap (Scan.hintsOf config (host e))
        queries := .diagnostics .common :: ds.flatMap (Scan.queriesOf (host e))
        records := [.opened, .entered, .event (.diagnostics ds.length)] ++
          (ds.flatMap (Scan.eventsOf config (host e))).map .event ++ [.left] } := by
  rw [Host.collectInto, Session.collectInto_eq]
  simp only [Scan.foldl_step_steady, Scan.extend]
  rfl

/-! ## The sink -/

/-- The host that reports the given diagnostics and answers all else as before. -/
def Host.reporting {ε : Type} (host : Host ε) (ds : List Diagnostic) : Host ε :=
  fun e => { host e with diagnostics := fun _ => ds }

/-- A diagnostic from which no problem is read. -/
def Diagnostic.Skipped (builtins : Builtins) (d : Diagnostic) : Prop :=
  d.ranges = [] ∨ ∃ why, Problem.classify builtins d = .error why

theorem Scan.hintsOf_of_skipped {config : Config} {answers : Answers} {d : Diagnostic}
    (h : d.Skipped answers.builtins) : Scan.hintsOf config answers d = [] := by
  unfold Scan.hintsOf
  by_cases hr : d.ranges = []
  · rw [if_pos hr]
  · obtain ⟨why, hw⟩ := h.resolve_left hr
    rw [if_neg hr, hw]

theorem Host.collect_reporting {ε : Type} (host : Host ε) (config : Config) (e : ε)
    (ds : List Diagnostic) :
    ((host.reporting ds).collect config e).hints = ds.flatMap (Scan.hintsOf config (host e)) := by
  rw [Host.collect, Host.collectInto_eq]
  exact List.nil_append _

/-- **The sink after a scan.** A scan adds to the sink what each diagnostic has to show, in the
order of the diagnostics and after what was there. So the hints of two lists of diagnostics follow
each other, and a diagnostic that is skipped makes no difference. -/
theorem Host.collectInto_hints {ε : Type} (host : Host ε) (config : Config) (e : ε) :
    (∀ sink, (host.collectInto config e sink).hints =
      sink ++ ((host e).diagnostics .common).flatMap (Scan.hintsOf config (host e))) ∧
    (∀ ds₁ ds₂, ((host.reporting (ds₁ ++ ds₂)).collect config e).hints =
      ((host.reporting ds₁).collect config e).hints ++
        ((host.reporting ds₂).collect config e).hints) ∧
    ∀ ds₁ d ds₂, d.Skipped (host e).builtins →
      ((host.reporting (ds₁ ++ d :: ds₂)).collect config e).hints =
        ((host.reporting (ds₁ ++ ds₂)).collect config e).hints := by
  refine ⟨fun sink => ?_, fun ds₁ ds₂ => ?_, fun ds₁ d ds₂ hd => ?_⟩
  · rw [Host.collectInto_eq]
  · simp only [Host.collect_reporting, List.flatMap_append]
  · simp only [Host.collect_reporting, List.flatMap_append, List.flatMap_cons,
      Scan.hintsOf_of_skipped hd, List.nil_append]

/-- A diagnostic that is not recognized, between two mismatches that are shown. -/
theorem Host.collectInto_hints_unrecognized :
    let mismatch (span : Span) : Diagnostic := ⟨"TYPE_MISMATCH",
      (Payload.empty.withExpected (.simple "kotlin.Int")).withActual (.simple "kotlin.String"),
      [span]⟩
    let unknown : Diagnostic := ⟨"UNRESOLVED_REFERENCE", .empty, [⟨3, 7⟩]⟩
    let collect (ds : List Diagnostic) : List Hint :=
      ((({} : Workspace).host.reporting ds).collect .standard ⟨[], [], [], none⟩).hints
    unknown.Skipped .standard ∧
    collect [mismatch ⟨0, 2⟩, unknown, mismatch ⟨8, 9⟩] =
      collect [mismatch ⟨0, 2⟩, mismatch ⟨8, 9⟩] ∧
    (collect [mismatch ⟨0, 2⟩, unknown, mismatch ⟨8, 9⟩]).map (fun h => (h.offset, h.text)) =
      [(2, ": String ⇏ Int"), (9, ": String ⇏ Int")] := by
  intro mismatch unknown collect
  have hskip : unknown.Skipped .standard := .inr ⟨.unrecognized, rfl⟩
  have hcollect := (Host.collectInto_hints ({} : Workspace).host .standard ⟨[], [], [], none⟩).2.2
    [mismatch ⟨0, 2⟩] unknown [mismatch ⟨8, 9⟩] hskip
  refine ⟨hskip, hcollect, ?_⟩
  decide +kernel

end Inlay
