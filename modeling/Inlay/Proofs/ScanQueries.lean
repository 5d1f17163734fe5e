import Inlay.Proofs.Classification
import Inlay.Proofs.ScanSpec
import Mathlib.Data.List.Forall2

/-!
# What a scan asks

The questions of a scan follow from the diagnostics that it is told of. `Diagnostic.Asks` says which
ones a diagnostic leads to, and `Session.collectInto_queries` that a scan asks these and no others,
in the order of the diagnostics.

The answers may change with every question, the built-in types among them, by which diagnostics are
classified. Other built-in types can change one type of a problem; whether it is a call without
applicable candidates or a mismatch that is not by nullability alone, and with that the question it
leads to, stays the same (`Scan.queriesOf_eq`).
-/

namespace Inlay

/-- The set of checks that a question is about. -/
def Query.checkers? : Query → Option CheckerSet
  | .diagnostics checkers => some checkers
  | .builtins | .candidates | .declaredType => none

/-- The questions that a diagnostic leads to, in their order. -/
inductive Diagnostic.Asks (builtins : Builtins) (d : Diagnostic) : List Query → Prop
  | nothing : d.ranges = [] → Asks builtins d []
  | candidates {cs : List Symbol} : d.ranges ≠ [] →
      Problem.classify builtins d = .ok (.noneApplicable cs) →
      Asks builtins d [.builtins, .candidates]
  | declaredType {expected actual : Ty} : d.ranges ≠ [] →
      Problem.classify builtins d = .ok (.mismatch expected actual false) →
      Asks builtins d [.builtins, .declaredType]
  | builtins : d.ranges ≠ [] →
      (∀ cs, Problem.classify builtins d ≠ .ok (.noneApplicable cs)) →
      (∀ expected actual, Problem.classify builtins d ≠ .ok (.mismatch expected actual false)) →
      Asks builtins d [.builtins]

theorem Diagnostic.Asks.checkers {builtins : Builtins} {d : Diagnostic} {qs : List Query}
    (h : d.Asks builtins qs) : qs.filterMap Query.checkers? = [] := by
  cases h <;> rfl

theorem checkers_flatten {builtins : Builtins} {ds : List Diagnostic} {blocks : List (List Query)}
    (h : List.Forall₂ (Diagnostic.Asks builtins) ds blocks) :
    blocks.flatten.filterMap Query.checkers? = [] := by
  induction h with
  | nil => rfl
  | cons hd _ ih => rw [List.flatten_cons, List.filterMap_append, hd.checkers, ih, List.append_nil]

namespace Scan

theorem queriesOf_asks (answers : Answers) (d : Diagnostic) :
    d.Asks answers.builtins (queriesOf answers d) := by
  unfold queriesOf
  by_cases hr : d.ranges = []
  · rw [if_pos hr]
    exact .nothing hr
  · rw [if_neg hr]
    cases hd : Problem.classify answers.builtins d with
    | error why => exact .builtins hr (by simp [hd]) (by simp [hd])
    | ok p =>
      cases p with
      | noneApplicable cs => exact .candidates hr hd
      | mismatch expected actual only =>
        cases only with
        | false => exact .declaredType hr hd
        | true => exact .builtins hr (by simp [hd]) (by simp [hd])
      | _ => exact .builtins hr (by simp [hd]) (by simp [hd])

theorem queriesOfProblem_withImplied (builtins : Builtins) (factory : String) (p : Problem) :
    queriesOfProblem (p.withImplied builtins factory) = queriesOfProblem p := by
  cases p with
  | mismatch expected actual only =>
    unfold Problem.withImplied
    cases only <;> split_ifs <;> rfl
  | _ => rfl

/-- The questions that a diagnostic leads to do not depend on any answer. -/
theorem queriesOf_eq (answers answers' : Answers) (d : Diagnostic) :
    queriesOf answers' d = queriesOf answers d := by
  unfold queriesOf
  rw [Problem.classify_builtins answers.builtins answers'.builtins]
  cases Problem.classify answers.builtins d with
  | error why => rfl
  | ok p => simp only [Except.map, queriesOfProblem_withImplied]

/-- The questions of a list of diagnostics, whatever the answers along the way. -/
theorem queries_foldl_step (config : Config) (session : Session) (answers : Answers)
    (ds : List Diagnostic) (t : Transcript) :
    (ds.foldl (step config session) t).queries = t.queries ++ ds.flatMap (queriesOf answers) := by
  have hmet : (session.met t.queries ds).flatMap (fun x => queriesOf x.1 x.2) =
      ((session.met t.queries ds).map Prod.snd).flatMap (queriesOf answers) := by
    rw [List.flatMap_map]
    exact List.flatMap_congr fun x _ => queriesOf_eq answers x.1 x.2
  rw [session.map_snd_met] at hmet
  rw [foldl_step, ← hmet]
  rfl

end Scan

/-- **The questions of a scan.** A scan asks for the diagnostics of the checks that always run, and
then, diagnostic by diagnostic, what each of them leads to. This holds for any answers, also for
ones that change in the course of the scan, and the diagnostics may be classified by any built-in
types. No other set of checks is ever asked about. -/
theorem Session.collectInto_queries (session : Session) (config : Config) (sink : List Hint)
    (builtins : Builtins) :
    ∃ blocks, List.Forall₂ (Diagnostic.Asks builtins) ((session []).diagnostics .common) blocks ∧
      (session.collectInto config sink).queries = .diagnostics .common :: blocks.flatten ∧
      (session.collectInto config sink).queries.filterMap Query.checkers? = [.common] := by
  let answers : Answers := { session [] with builtins }
  let blocks := ((session []).diagnostics .common).map (Scan.queriesOf answers)
  have hblocks : List.Forall₂ (Diagnostic.Asks builtins) ((session []).diagnostics .common)
      blocks := by
    rw [List.forall₂_map_right_iff, List.forall₂_same]
    exact fun d _ => Scan.queriesOf_asks answers d
  have hqueries : (session.collectInto config sink).queries =
      .diagnostics .common :: blocks.flatten := by
    rw [Session.collectInto_eq]
    dsimp only
    rw [Scan.queries_foldl_step config session answers, List.flatMap_def]
    rfl
  refine ⟨blocks, hblocks, hqueries, ?_⟩
  rw [hqueries, List.filterMap_cons, checkers_flatten hblocks]
  rfl

-- a call, the same without ranges, a diagnostic that lacks a type, and a condition, for a host that
-- forgets the candidates once it was asked for them
example :
    let ds : List Diagnostic := [⟨"NONE_APPLICABLE", .empty, [⟨3, 7⟩]⟩,
      ⟨"NONE_APPLICABLE", .empty, []⟩, ⟨"TYPE_MISMATCH", .empty, [⟨3, 7⟩]⟩,
      ⟨"CONDITION_TYPE_MISMATCH", Payload.empty.withActual (.simple "A"), [⟨3, 7⟩]⟩]
    let session : Session := fun asked => {
      diagnostics := fun _ => ds
      builtins := .standard
      candidates := if .candidates ∈ asked then [] else [.ofBindings ⟨"f"⟩ []]
      declaredType := none }
    (session.collectInto .standard []).queries =
      [.diagnostics .common, .builtins, .candidates, .builtins, .builtins, .declaredType] := rfl

end Inlay
