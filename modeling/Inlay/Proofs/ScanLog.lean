import Inlay.Proofs.Classification
import Inlay.Proofs.ScanSpec
import Inlay.Proofs.TableSpec

/-!
# What a scan logs

The log of a scan accounts for every diagnostic once, in order. `Diagnostic.Accounted` says what is
written about a diagnostic: one line about what became of it (`Diagnostic.Outcome`), and a second
one if it is a call that is not explained (`Overload.Withheld`), in which case it adds nothing to
the sink. The answers may change in the course of a scan, so each diagnostic is accounted for by the
ones it meets (`Session.met`).

* `Scan.accounted`: what is done for one diagnostic accounts for it (the step).
* `Scan.shown_foldl_step`: the log after a list of diagnostics (the run).
* `Session.collectInto_log`: the log of a scan.

The description leaves no choice (`Diagnostic.Accounted.unique`), so a scan logs nothing else.
-/

namespace Inlay

/-! ## Lines -/

/-- An event as the log shows it. -/
structure Line where
  level : Level
  message : String
  values : List (String × LogValue)

/-- An entry of the log as it is shown. -/
inductive Shown where
  | span (name : String)
  | enter
  | exit
  | line (l : Line)

def Event.line (e : Event) : Line := ⟨e.level, e.message, e.fields⟩

def Record.shown : Record → Shown
  | .opened => .span Record.spanName
  | .entered => .enter
  | .left => .exit
  | .event e => .line e.line

/-! ## What is written about a diagnostic -/

/-- The diagnostic has a row of the table, and `p` is the problem of the finding that this row
reads from it. -/
def Diagnostic.Reports (builtins : Builtins) (d : Diagnostic) (p : Problem) : Prop :=
  ∃ rule ∈ Finding.rules, rule.factory = d.factory ∧
    ∃ finding, rule.read d.payload = some finding ∧ Problem.ofFinding builtins finding = p

/-- The line about what becomes of a diagnostic. -/
inductive Diagnostic.Outcome (builtins : Builtins) (d : Diagnostic) : Line → Prop
  | withoutRanges : d.ranges = [] →
      Outcome builtins d ⟨.trace, "diagnostic without ranges", [("factory", .text d.factory)]⟩
  | unrecognized : d.ranges ≠ [] → (∀ rule ∈ Finding.rules, rule.factory ≠ d.factory) →
      Outcome builtins d ⟨.trace, "unrecognized diagnostic", [("factory", .text d.factory)]⟩
  | incomplete {rule : Finding.Rule} : d.ranges ≠ [] →
      rule ∈ Finding.rules → rule.factory = d.factory → rule.read d.payload = none →
      Outcome builtins d ⟨.trace, "diagnostic payload incomplete", [("factory", .text d.factory)]⟩
  | classified {p : Problem} : d.ranges ≠ [] → d.Reports builtins p →
      Outcome builtins d ⟨.trace, "classified",
        [("factory", .text d.factory), ("problem", .text p.name)]⟩

/-- The line about a call that is not explained. -/
inductive Overload.Withheld (config : Config) (candidates : List Candidate) : Line → Prop
  | noneExplainable : columns candidates = [] →
      Withheld config candidates ⟨.debug, "no explainable overload candidates",
        [("best_count", .count (best candidates).length)]⟩
  | tooMany : columns candidates ≠ [] → config.effectiveBound < (columns candidates).length →
      Withheld config candidates ⟨.debug, "too many overload candidates to explain",
        [("count", .count (columns candidates).length), ("bound", .count config.effectiveBound)]⟩
  | discarded : columns candidates ≠ [] → (columns candidates).length ≤ config.effectiveBound →
      (columns candidates).length < (best candidates).length →
      Withheld config candidates ⟨.debug, "best-ranked candidates were discarded",
        [("best_count", .count (best candidates).length),
          ("explainable", .count (columns candidates).length)]⟩

/-- A diagnostic about a call without applicable candidates. -/
def Diagnostic.IsCall (builtins : Builtins) (d : Diagnostic) : Prop :=
  d.ranges ≠ [] ∧ ∃ cs, d.Reports builtins (.noneApplicable cs)

/-- What a diagnostic leaves in the log and in the sink. -/
structure Block where
  lines : List Line
  hints : List Hint

/-- What is left of a diagnostic, for the answers it meets. -/
inductive Diagnostic.Accounted (config : Config) : Answers × Diagnostic → Block → Prop
  | told {answers : Answers} {d : Diagnostic} {l : Line} : d.Outcome answers.builtins l →
      (d.IsCall answers.builtins → ∃ rs, Overload.analyze config answers.candidates = .ok rs) →
      Accounted config (answers, d) ⟨[l], Scan.hintsOf config answers d⟩
  | withheld {answers : Answers} {d : Diagnostic} {l m : Line} {why : Suppression} :
      d.Outcome answers.builtins l → d.IsCall answers.builtins →
      Overload.analyze config answers.candidates = .error why →
      Overload.Withheld config answers.candidates m →
      Accounted config (answers, d) ⟨[l, m], []⟩

/-! ## No choice -/

theorem Diagnostic.reports_iff {builtins : Builtins} {d : Diagnostic} {p : Problem} :
    d.Reports builtins p ↔ Problem.classify builtins d = .ok p := by
  unfold Problem.classify
  obtain ⟨hd, hnone⟩ | ⟨rule, hm, hname, hread⟩ := Finding.ofDiagnostic_cases d
  · rw [hd]
    refine ⟨?_, fun h => by cases h⟩
    rintro ⟨rule, hm, hname, -⟩
    exact absurd hname (hnone rule hm)
  · -- names are unique in the table, so `rule` is the row in question
    have hreports : d.Reports builtins p ↔
        ∃ finding, rule.read d.payload = some finding ∧ Problem.ofFinding builtins finding = p := by
      refine ⟨?_, fun h => ⟨rule, hm, hname, h⟩⟩
      rintro ⟨rule', hm', hname', h⟩
      cases Finding.rule_unique hm hm' (hname.trans hname'.symm)
      exact h
    obtain ⟨hread, hd⟩ | ⟨finding, hread, hd⟩ := hread
    · rw [hreports, hread, hd]
      simp [Except.map]
    · rw [hreports, hread, hd]
      simp [Except.map]

theorem Diagnostic.Outcome.unique {builtins : Builtins} {d : Diagnostic} {l l' : Line}
    (h : d.Outcome builtins l) (h' : d.Outcome builtins l') : l = l' := by
  cases h with
  | withoutRanges hr =>
    cases h' with
    | withoutRanges => rfl
    | unrecognized hr' | incomplete hr' | classified hr' => exact absurd hr hr'
  | unrecognized hr hnone =>
    cases h' with
    | withoutRanges hr' => exact absurd hr' hr
    | unrecognized => rfl
    | incomplete _ hm hname => exact absurd hname (hnone _ hm)
    | classified _ hp =>
      obtain ⟨rule, hm, hname, -⟩ := hp
      exact absurd hname (hnone _ hm)
  | incomplete hr hm hname hread =>
    cases h' with
    | withoutRanges hr' => exact absurd hr' hr
    | unrecognized _ hnone => exact absurd hname (hnone _ hm)
    | incomplete => rfl
    | classified _ hp =>
      obtain ⟨rule, hm', hname', finding, hread', -⟩ := hp
      cases Finding.rule_unique hm hm' (hname.trans hname'.symm)
      cases hread.symm.trans hread'
  | classified hr hp =>
    cases h' with
    | withoutRanges hr' => exact absurd hr' hr
    | unrecognized _ hnone =>
      obtain ⟨rule, hm, hname, -⟩ := hp
      exact absurd hname (hnone _ hm)
    | incomplete _ hm' hname' hread' =>
      obtain ⟨rule, hm, hname, finding, hread, -⟩ := hp
      cases Finding.rule_unique hm hm' (hname.trans hname'.symm)
      cases hread.symm.trans hread'
    | classified _ hp' =>
      rw [Diagnostic.reports_iff] at hp hp'
      cases hp.symm.trans hp'
      rfl

theorem Overload.Withheld.unique {config : Config} {candidates : List Candidate} {l l' : Line}
    (h : Withheld config candidates l) (h' : Withheld config candidates l') : l = l' := by
  cases h with
  | noneExplainable hnone =>
    cases h' with
    | noneExplainable => rfl
    | tooMany hsome | discarded hsome => exact absurd hnone hsome
  | tooMany hsome hbound =>
    cases h' with
    | noneExplainable hnone => exact absurd hnone hsome
    | tooMany => rfl
    | discarded _ hle => omega
  | discarded hsome hle =>
    cases h' with
    | noneExplainable hnone => exact absurd hnone hsome
    | tooMany _ hbound => omega
    | discarded => rfl

theorem Diagnostic.Accounted.unique {config : Config} {x : Answers × Diagnostic} {b b' : Block}
    (h : Accounted config x b) (h' : Accounted config x b') : b = b' := by
  cases h with
  | told hl hok =>
    cases h' with
    | told hl' _ => rw [hl.unique hl']
    | withheld _ hcall herror _ =>
      obtain ⟨rs, hrs⟩ := hok hcall
      rw [hrs] at herror
      cases herror
  | withheld hl hcall herror hm =>
    cases h' with
    | told _ hok =>
      obtain ⟨rs, hrs⟩ := hok hcall
      rw [hrs] at herror
      cases herror
    | withheld hl' _ _ hm' => rw [hl.unique hl', hm.unique hm']

/-! ## One diagnostic -/

theorem Event.outcome_line {d : Diagnostic} (builtins : Builtins) (hr : d.ranges ≠ []) :
    d.Outcome builtins (Event.ofClassification builtins d).line := by
  unfold Event.ofClassification
  obtain ⟨hd, hnone⟩ | ⟨rule, hm, hname, ⟨hread, hd⟩ | ⟨finding, hread, hd⟩⟩ :=
    Finding.ofDiagnostic_cases d
  · rw [hd]
    exact .unrecognized hr hnone
  · rw [hd]
    exact .incomplete hr hm hname hread
  · have hfactory : finding.factory = d.factory := Finding.factory_of_ofDiagnostic hd
    rw [hd]
    dsimp only
    rw [hfactory]
    exact .classified hr ⟨rule, hm, hname, finding, hread, rfl⟩

theorem Overload.withheld_line {config : Config} {candidates : List Candidate} {why : Suppression}
    (h : analyze config candidates = .error why) :
    ∃ e, Event.ofSuppression why = [e] ∧ Withheld config candidates e.line := by
  rw [analyze_eq] at h
  cases hwhy : suppression? config (columns candidates).length (best candidates).length with
  | none =>
    rw [hwhy] at h
    cases h
  | some why' =>
    rw [hwhy] at h
    cases h
    unfold suppression? at hwhy
    split_ifs at hwhy with hzero hbound hbest <;> cases hwhy
    · exact ⟨_, rfl, .noneExplainable (List.length_eq_zero_iff.1 hzero)⟩
    · exact ⟨_, rfl, .tooMany (mt List.length_eq_zero_iff.2 hzero) hbound⟩
    · exact ⟨_, rfl, .discarded (mt List.length_eq_zero_iff.2 hzero) (by omega) hbest⟩

namespace Scan

/-- What a diagnostic leaves behind. -/
def block (config : Config) (x : Answers × Diagnostic) : Block :=
  ⟨(eventsOf config x.1 x.2).map Event.line, hintsOf config x.1 x.2⟩

section
variable (config : Config) (answers : Answers) {d : Diagnostic}

theorem eventsOf_call (h : d.IsCall answers.builtins) :
    eventsOf config answers d = .ofClassification answers.builtins d ::
      Event.ofAnalysis (Overload.analyze config answers.candidates) := by
  obtain ⟨hr, cs, hcs⟩ := h
  rw [eventsOf, if_neg hr, Diagnostic.reports_iff.1 hcs]
  rfl

theorem hintsOf_call (h : d.IsCall answers.builtins) :
    hintsOf config answers d = Overload.hints config answers.candidates := by
  obtain ⟨hr, cs, hcs⟩ := h
  rw [hintsOf, if_neg hr, Diagnostic.reports_iff.1 hcs]
  rfl

theorem eventsOf_other (hr : d.ranges ≠ []) (h : ¬ d.IsCall answers.builtins) :
    eventsOf config answers d = [.ofClassification answers.builtins d] := by
  rw [eventsOf, if_neg hr]
  cases hd : Problem.classify answers.builtins d with
  | error why => rfl
  | ok p =>
    cases p with
    | noneApplicable cs => exact absurd ⟨hr, cs, Diagnostic.reports_iff.2 hd⟩ h
    | _ => rfl

/-- **The step**: what is done for a diagnostic accounts for it. -/
theorem accounted (d : Diagnostic) :
    Diagnostic.Accounted config (answers, d) (block config (answers, d)) := by
  unfold block
  dsimp only
  by_cases hr : d.ranges = []
  · rw [eventsOf, if_pos hr]
    exact .told (.withoutRanges hr) fun hcall => absurd hr hcall.1
  have hl := Event.outcome_line answers.builtins hr
  by_cases hcall : d.IsCall answers.builtins
  · rw [eventsOf_call config answers hcall]
    cases ha : Overload.analyze config answers.candidates with
    | ok rs => exact .told hl fun _ => ⟨rs, ha⟩
    | error why =>
      have hhints : hintsOf config answers d = [] := by
        rw [hintsOf_call config answers hcall, Overload.hints, ha]
      obtain ⟨e, he, hm⟩ := Overload.withheld_line ha
      rw [hhints, Event.ofAnalysis, he]
      exact .withheld hl hcall ha hm
  · rw [eventsOf_other config answers hr hcall]
    exact .told hl fun h => absurd h hcall

end

end Scan

/-! ## The scan -/

namespace Scan

theorem forall₂_accounted_iff (config : Config) (xs : List (Answers × Diagnostic))
    (bs : List Block) :
    List.Forall₂ (Diagnostic.Accounted config) xs bs ↔ bs = xs.map (block config) := by
  have hblocks : List.Forall₂ (Diagnostic.Accounted config) xs (xs.map (block config)) := by
    rw [List.forall₂_map_right_iff, List.forall₂_same]
    exact fun x _ => accounted config x.1 x.2
  have hunique : Relator.RightUnique (Diagnostic.Accounted config) :=
    fun _ _ _ => Diagnostic.Accounted.unique
  constructor
  · exact fun h => hunique.forall₂ h hblocks
  · rintro rfl
    exact hblocks

theorem shown_event (es : List Event) :
    (es.map Record.event).map Record.shown = (es.map Event.line).map .line := by
  rw [List.map_map, List.map_map]
  rfl

/-- **The run**: the log after a list of diagnostics. -/
theorem shown_foldl_step (config : Config) (session : Session) (ds : List Diagnostic)
    (t : Transcript) :
    (ds.foldl (step config session) t).records.map Record.shown = t.records.map Record.shown ++
      (((session.met t.queries ds).map (block config)).flatMap (·.lines)).map .line := by
  rw [foldl_step, List.flatMap_map]
  show (t.records ++ _).map Record.shown = _
  rw [List.map_append, shown_event, List.map_flatMap]
  rfl

end Scan

/-- **The log of a scan.** Inside the span of the scan, the log gives the number of diagnostics and
then accounts for each of them, in order and in the only way there is, while the sink takes what
they leave there. -/
theorem Session.collectInto_log (session : Session) (config : Config) (sink : List Hint) :
    let ds := (session []).diagnostics .common
    let t := session.collectInto config sink
    ∃ blocks : List Block, blocks.length = ds.length ∧
      (∀ bs, List.Forall₂ (Diagnostic.Accounted config)
        (session.met [.diagnostics .common] ds) bs ↔ bs = blocks) ∧
      t.records.map Record.shown =
        [.span "collect_from_element", .enter,
          .line ⟨.debug, "diagnostics", [("count", .count ds.length)]⟩] ++
        (blocks.flatMap (·.lines)).map .line ++ [.exit] ∧
      t.hints = sink ++ blocks.flatMap (·.hints) := by
  intro ds t
  have ht : t = _ := session.collectInto_eq config sink
  refine ⟨(session.met [.diagnostics .common] ds).map (Scan.block config), ?_,
    Scan.forall₂_accounted_iff config _, ?_, ?_⟩
  · rw [List.length_map, ← List.length_map Prod.snd, session.map_snd_met]
  · rw [ht]
    dsimp only
    rw [List.map_append, Scan.shown_foldl_step]
    rfl
  · rw [ht]
    dsimp only
    rw [Scan.foldl_step, List.flatMap_map]
    rfl

-- a call without ranges, a name that is not in the table, a diagnostic that lacks its types, and a
-- call twice, for a host that knows the candidates only until it was asked for them
example :
    let ranges : List Span := [⟨3, 7⟩]
    let ds : List Diagnostic := [⟨"NONE_APPLICABLE", .empty, []⟩, ⟨"UNUSED", .empty, ranges⟩,
      ⟨"TYPE_MISMATCH", .empty, ranges⟩, ⟨"NONE_APPLICABLE", .empty, ranges⟩,
      ⟨"NONE_APPLICABLE", .empty, ranges⟩]
    let session : Session := fun asked => {
      diagnostics := fun _ => ds
      builtins := .standard
      candidates := if .candidates ∈ asked then [] else [.ofBindings ⟨"f"⟩ []]
      declaredType := none }
    (session.collectInto .standard []).records =
      [.opened, .entered, .event (.diagnostics 5), .event (.withoutRanges "NONE_APPLICABLE"),
        .event (.unexplained "UNUSED" .unrecognized),
        .event (.unexplained "TYPE_MISMATCH" .incomplete),
        .event (.classified "NONE_APPLICABLE" "none applicable"),
        .event (.classified "NONE_APPLICABLE" "none applicable"),
        .event (.noneExplainable 0), .left] := rfl

end Inlay
