import GrowthAudit.Proofs.Run.Contributions
import GrowthAudit.Proofs.Run.Statistics
import Mathlib.Algebra.Ring.Int.Defs

/-!
# Combined runs

A combined run goes through configurations one after the other.  What a configuration suppresses
stays suppressed for all that follow, and nothing else is handed on.  So the report can be told
without running anything: it joins what the checkers contribute for each configuration, without what
was suppressed at the start or is suppressed by a configuration up to this one.

* `Runner.SingleRuns`: the runs that a combined run is made of, each in the session that the one
  before has left.
* `Runner.singleRuns_of_runAll`: a combined run that comes to an end has joined the reports of its
  single runs.
* `Runner.reported`, `Runner.reported_eq`: the diagnostics, by recursion and for each position.
* `Runner.Combines`, `Runner.runAll_combines`: the diagnostics and the counts of a combined run of
  standard checkers, and that a second run over one configuration repeats the first.
-/

namespace GrowthAudit

/-- What a joint report consists of. -/
theorem Report.of_append? {r part joined : Report} (h : r.append? part = .ok joined) :
    joined.diagnostics = r.diagnostics ++ part.diagnostics ∧
      part.stats.foldlM addStat r.stats = .ok joined.stats := by
  obtain ⟨stats, hstats, hjoined⟩ := Outcome.of_bind_eq_ok h
  cases hjoined
  exact ⟨rfl, hstats⟩

namespace Runner

variable {r : Runner} {checkers : Option (List String)}

/-! ### Single runs -/

/-- The results of runs over single configurations, each in the session that the run before has
left. -/
inductive SingleRuns (r : Runner) (checkers : Option (List String)) :
    List Configuration → Session → List RunResult → Prop
  | nil {s : Session} : SingleRuns r checkers [] s []
  | cons {c : Configuration} {cs : List Configuration} {s : Session} {part : RunResult}
      {parts : List RunResult} :
      (r.run c checkers s).1 = .ok part → SingleRuns r checkers cs (r.run c checkers s).2 parts →
      SingleRuns r checkers (c :: cs) s (part :: parts)

/-- Adds the statistics of a single run. -/
def addStatsOf (stats : Stats) (part : RunResult) : Except Failure Stats :=
  part.report.stats.foldlM Report.addStat stats

/-- One configuration of a combined run: its report is joined, and the others follow. -/
theorem exists_part_of_runFrom_cons {c : Configuration} {cs : List Configuration}
    {before after : RunResult} {s : Session}
    (h : (r.runFrom checkers (c :: cs) before s).1 = .ok after) :
    ∃ part joined, (r.run c checkers s).1 = .ok part ∧
      before.report.append? part.report = .ok joined ∧
      (r.runFrom checkers cs ⟨joined, before.log ++ part.log⟩ (r.run c checkers s).2).1 =
        .ok after := by
  rw [runFrom] at h
  split at h
  · cases h
  · next part s' hrun =>
    split at h
    · cases h
    · next joined hjoined =>
      rw [hrun]
      exact ⟨part, joined, rfl, hjoined, h⟩

/-- A combined run joins its single runs, by induction on the configurations. -/
theorem singleRuns_of_runFrom {cs : List Configuration} {before after : RunResult} {s : Session}
    (h : (r.runFrom checkers cs before s).1 = .ok after) :
    ∃ parts, SingleRuns r checkers cs s parts ∧
      after.report.diagnostics =
        before.report.diagnostics ++ parts.flatMap (·.report.diagnostics) ∧
      parts.foldlM addStatsOf before.report.stats = .ok after.report.stats := by
  induction cs generalizing before s with
  | nil =>
    cases h
    exact ⟨[], .nil, (List.append_nil _).symm, rfl⟩
  | cons c cs ih =>
    obtain ⟨part, joined, hrun, hjoined, hrest⟩ := exists_part_of_runFrom_cons h
    obtain ⟨hdiagnostics, hstats⟩ := Report.of_append? hjoined
    obtain ⟨parts, hparts, hall, hsum⟩ := ih hrest
    refine ⟨part :: parts, .cons hrun hparts, ?_, ?_⟩
    · rw [hall, hdiagnostics, List.flatMap_cons, List.append_assoc]
    · rw [List.foldlM_cons, addStatsOf, hstats]
      exact hsum

theorem singleRuns_of_runAll {cs : List Configuration} {s : Session} {result : RunResult}
    (h : (r.runAll cs checkers s).1 = .ok result) :
    ∃ parts, SingleRuns r checkers cs s parts ∧
      result.report.diagnostics = parts.flatMap (·.report.diagnostics) ∧
      parts.foldlM addStatsOf [] = .ok result.report.stats :=
  singleRuns_of_runFrom h

/-! ### Diagnostics -/

/-- The contributions for configurations one after the other.  Each configuration hides what it
suppresses from itself and from those behind it. -/
def reported (r : Runner) (checkers : Option (List String)) (hidden : Diagnostic → Bool) :
    List Configuration → List Diagnostic
  | [] => []
  | c :: cs =>
    r.contributions checkers c (fun d => hidden d || c.suppresses d) ++
      r.reported checkers (fun d => hidden d || c.suppresses d) cs

/-- What is hidden at a position is hidden from the start, or by a configuration up to there. -/
theorem reported_eq (hidden : Diagnostic → Bool) (cs : List Configuration) :
    r.reported checkers hidden cs = cs.zipIdx.flatMap fun (c, i) =>
      r.contributions checkers c fun d => hidden d || (cs.take (i + 1)).any (·.suppresses d) := by
  induction cs generalizing hidden with
  | nil => rfl
  | cons c cs ih =>
    rw [reported, ih, List.zipIdx_cons, List.zipIdx_succ, List.flatMap_cons, List.flatMap_map]
    simp [Bool.or_assoc]

theorem SingleRuns.diagnostics {cs : List Configuration} {s : Session} {parts : List RunResult}
    (h : SingleRuns r checkers cs s parts) :
    parts.flatMap (·.report.diagnostics) = r.reported checkers s.suppressions.covers cs := by
  induction h with
  | nil => rfl
  | cons hrun _ ih =>
    rw [List.flatMap_cons, ih, contributions_of_run hrun, funext (covers_run hrun), reported]

theorem reported_of_runAll {cs : List Configuration} {s : Session} {result : RunResult}
    (h : (r.runAll cs checkers s).1 = .ok result) :
    result.report.diagnostics = r.reported checkers s.suppressions.covers cs := by
  obtain ⟨parts, hparts, hdiagnostics, -⟩ := singleRuns_of_runAll h
  rw [hdiagnostics, hparts.diagnostics]

/-! ### Counts -/

/-- Adding up single runs adds up their counts. -/
theorem SingleRuns.count? {cs : List Configuration} {s : Session} {parts : List RunResult}
    (h : SingleRuns r checkers cs s parts) {stats stats' : Stats}
    (hsum : parts.foldlM addStatsOf stats = .ok stats') (key : String) :
    Stats.count? stats' key = Option.map₂ (· + ·) (Stats.count? stats key)
      ((parts.mapM fun part => Stats.count? part.report.stats key).map List.sum) := by
  induction h generalizing stats with
  | nil =>
    cases hsum
    exact (Option.map₂_right_identity Int.add_zero _).symm
  | @cons c cs s part parts hrun _ ih =>
    rw [List.foldlM_cons] at hsum
    obtain ⟨between, hadd, hrest⟩ := Outcome.of_bind_eq_ok hsum
    rw [ih hrest, Stats.count?_addStats (nodup_keys_of_run hrun) hadd,
      Option.map₂_assoc Int.add_assoc, List.mapM_cons]
    congr 1
    cases Stats.count? part.report.stats key with
    | none => rfl
    | some n =>
      cases parts.mapM fun part => Stats.count? part.report.stats key with
      | none => rfl
      | some ns => rfl

/-! ### The combined run -/

/-- What a combined run reports: for each configuration the contributions of the checkers, without
what is suppressed at the start or by a configuration up to this one, and counts that are the sums
of the counts of the single runs.  What the checkers contribute is taken from the configuration
without its comments. -/
structure Combines (r : Runner) (checkers : Option (List String)) (cs : List Configuration)
    (s : Session) (result : RunResult) : Prop where
  diagnostics : result.report.diagnostics = cs.zipIdx.flatMap fun (c, i) =>
    r.contributions checkers { c with suppressions := [] } fun d =>
      s.suppressions.covers d || (cs.take (i + 1)).any (·.suppresses d)
  counts : ∃ parts, SingleRuns r checkers cs s parts ∧
    ∀ key, Stats.count? result.report.stats key =
      (parts.mapM fun part => Stats.count? part.report.stats key).map List.sum

/-- A second run over the same configuration hides nothing more. -/
theorem diagnostics_of_run_twice {c : Configuration} {s : Session} {first second : RunResult}
    (hfirst : (r.run c checkers s).1 = .ok first)
    (hsecond : (r.run c checkers (r.run c checkers s).2).1 = .ok second) :
    second.report.diagnostics = first.report.diagnostics := by
  rw [contributions_of_run hfirst, contributions_of_run hsecond]
  simp only [covers_run hfirst, Bool.or_assoc, Bool.or_self]

/-- **A combined run of standard checkers** reports what they contribute for each configuration
under all suppressions so far, with counts that add up.  A run that is repeated reports the same. -/
theorem runAll_combines (hstandard : ∀ checker ∈ (r.select checkers).1, checker.Standard) :
    (∀ cs s result, (r.runAll cs checkers s).1 = .ok result → Combines r checkers cs s result) ∧
      ∀ c s first second, (r.run c checkers s).1 = .ok first →
        (r.run c checkers (r.run c checkers s).2).1 = .ok second →
        second.report.diagnostics = first.report.diagnostics := by
  refine ⟨fun cs s result h => ?_, fun c s first second => diagnostics_of_run_twice⟩
  obtain ⟨parts, hparts, -, hsum⟩ := singleRuns_of_runAll h
  refine ⟨?_, parts, hparts, fun key => ?_⟩
  · rw [reported_of_runAll h, reported_eq]
    simp only [contributions_comments hstandard]
  · rw [hparts.count? hsum key]
    exact Option.map₂_left_identity Int.zero_add _

/-- A checker that reports one diagnostic and counts it. -/
def countingScript : Script where
  name := "counting"
  stats := [("counted", .int 2), ("called", .bool true)]
  diagnostics := [
    { id := "counted", message := "counted", severity := .style, location := ⟨"b.cpp", 1, 1⟩ }]

/-- A checker that gives up after it has reported a diagnostic. -/
def quittingScript : Script where
  name := "quitting"
  diagnostics := [
    { id := "started", message := "started", severity := .style, location := ⟨"b.cpp", 2, 1⟩ }]
  failure := some (.diagnose, .audit (.failed "out of patience" .null))

/-- The standard registry with both scripts. -/
def scriptedRegistry : Registry :=
  (Registry.standard.register countingScript.checker).register quittingScript.checker

/-- A configuration that suppresses all findings. -/
def hushing : Configuration where
  suppressions := [{ id := findingId }]

/-- Over `throwingVector`, `hushing` and `throwingVector` again, the finding is shown the first time
only. -/
theorem runAll_combines_sample :
    (∀ checker ∈ (({ registry := scriptedRegistry } : Runner).select none).1, checker.Standard) ∧
      ∃ result,
        (({ registry := scriptedRegistry } : Runner).runAll
          [throwingVector, hushing, throwingVector] none {}).1 = .ok result ∧
        Combines { registry := scriptedRegistry } none [throwingVector, hushing, throwingVector] {}
          result ∧
        result.report.diagnostics.map (·.id) =
          ["vectorPessimization", "counted", "checkerInternalError", "counted",
            "checkerInternalError", "counted", "checkerInternalError"] ∧
        Stats.count? result.report.stats "counted" = some 6 ∧
        Stats.count? result.report.stats "called" = some 3 ∧
        Stats.count? result.report.stats GrowthChecker.siteCountKey = some 2 := by
  have hregistry : scriptedRegistry.Standard :=
    (Registry.standard_standard.register (.scripted countingScript)).register
      (.scripted quittingScript)
  have hstandard : ∀ checker ∈ (({ registry := scriptedRegistry } : Runner).select none).1,
      checker.Standard := fun _ => hregistry.of_mem_select
  refine ⟨hstandard, _, rfl, (runAll_combines hstandard).1 _ _ _ rfl, ?_, ?_, ?_, ?_⟩
  all_goals decide +kernel

end Runner

end GrowthAudit
