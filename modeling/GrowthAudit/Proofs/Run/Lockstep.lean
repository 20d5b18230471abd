import GrowthAudit.Proofs.Run.Outcome
import GrowthAudit.Runner
import Mathlib.Data.List.Forall2

/-!
# Runs in lockstep

Two runs that differ in their options, their suppressions or their configurations are compared step
by step.  As long as each step fails in both runs alike or keeps a relation between their results,
so do the whole runs.  Checkers that are timed alike leave the clock alike.

* `Runner.runCheckers_lockstep`: a relation that each checker keeps up holds at the end, by
  induction on the checkers; `Runner.runCheckers_alike` is the case of diagnostics that are related
  one by one.
* `Runner.runFrom_lockstep`: the same for combined runs, by induction on the configurations.
-/

namespace GrowthAudit

namespace Runner

variable {options options' : Value} {c c' : Configuration} {suppressions : Suppressions}

/-! ### Runs over single configurations -/

/-- A relation between two runs, with the statistics recorded so far, goes on to hold behind a
further checker, whatever the time it took. -/
def GoesOn (Q : RunResult → Stats → RunResult → Stats → Prop) (checker : String)
    (recorded recorded' : Stats) (p p' : List Diagnostic × List LogRecord) : Prop :=
  ∀ before stats before' stats' elapsed, Q before stats before' stats' →
    Q ⟨before.report.addPass checker p.1 elapsed (Stats.update stats recorded),
        before.log ++ p.2⟩ (Stats.update stats recorded)
      ⟨before'.report.addPass checker p'.1 elapsed (Stats.update stats' recorded'),
        before'.log ++ p'.2⟩ (Stats.update stats' recorded')

/-- **Two runs in lockstep**: if each checker goes alike in both and a relation goes on to hold
behind it, then the runs go alike, with results in this relation, and the clock ends up the same. -/
theorem runCheckers_lockstep {Q : RunResult → Stats → RunResult → Stats → Prop}
    {suppressions' : Suppressions} {checkers : List Checker}
    (h : ∀ checker ∈ checkers,
      Outcome.Alike
        (GoesOn Q checker.name (checker.inspect options c).stats
          (checker.inspect options' c').stats)
        (shown suppressions checker.name (checker.inspect options c).result)
        (shown suppressions' checker.name (checker.inspect options' c').result))
    {stats stats' : Stats} {before before' : RunResult} (clock : Clock)
    (hbefore : Q before stats before' stats') :
    Outcome.Alike (fun r r' => ∃ stats stats', Q r stats r' stats')
        (runCheckers options c suppressions checkers stats before clock).1
        (runCheckers options' c' suppressions' checkers stats' before' clock).1 ∧
      (runCheckers options c suppressions checkers stats before clock).2 =
        (runCheckers options' c' suppressions' checkers stats' before' clock).2 := by
  induction checkers generalizing stats stats' before before' clock with
  | nil => exact ⟨.succeeded ⟨_, _, hbefore⟩, rfl⟩
  | cons checker checkers ih =>
    have hchecker := h checker List.mem_cons_self
    replace ih := @ih fun checker hmem => h checker (List.mem_cons_of_mem _ hmem)
    simp only [runCheckers]
    generalize shown suppressions checker.name (checker.inspect options c).result = shown₁
      at hchecker ⊢
    generalize shown suppressions' checker.name (checker.inspect options' c').result = shown₂
      at hchecker ⊢
    cases hchecker with
    | failed => exact ⟨.failed, rfl⟩
    | succeeded hgoesOn =>
      simp only
      split
      · exact ⟨.failed, rfl⟩
      · exact ih _ (hgoesOn _ _ _ _ _ hbefore)

/-- The diagnostics of two passes are related one by one. -/
def InStep (R : Diagnostic → Diagnostic → Prop) (p p' : List Diagnostic × List LogRecord) : Prop :=
  List.Forall₂ R p.1 p'.1

/-- If each checker goes alike under two options, then so does the run: it fails alike or reports
related diagnostics, and the clock ends up the same. -/
theorem runCheckers_alike {R : Diagnostic → Diagnostic → Prop} {checkers : List Checker}
    (h : ∀ checker ∈ checkers,
      Outcome.Alike (InStep R)
        (shown suppressions checker.name (checker.inspect options c).result)
        (shown suppressions checker.name (checker.inspect options' c).result))
    (stats stats' : Stats) (before before' : RunResult) (clock : Clock)
    (hbefore : List.Forall₂ R before.report.diagnostics before'.report.diagnostics) :
    Outcome.Alike
        (fun r r' : RunResult => List.Forall₂ R r.report.diagnostics r'.report.diagnostics)
        (runCheckers options c suppressions checkers stats before clock).1
        (runCheckers options' c suppressions checkers stats' before' clock).1 ∧
      (runCheckers options c suppressions checkers stats before clock).2 =
        (runCheckers options' c suppressions checkers stats' before' clock).2 := by
  obtain ⟨halike, hclock⟩ := runCheckers_lockstep
    (Q := fun r _ r' _ => List.Forall₂ R r.report.diagnostics r'.report.diagnostics)
    (fun checker hmem => (h checker hmem).mono
      fun _ _ hds _ _ _ _ _ hbefore => List.rel_append hbefore hds)
    clock hbefore
  refine ⟨halike.mono ?_, hclock⟩
  rintro _ _ ⟨_, _, hds⟩
  exact hds

/-! ### Combined runs -/

/-- Two results stay in a relation when the results of a further configuration are joined, or
joining fails in both cases alike. -/
def Joins (Q : RunResult → RunResult → Prop) (before before' part part' : RunResult) : Prop :=
  Outcome.Alike (fun r r' => Q ⟨r, before.log ++ part.log⟩ ⟨r', before'.log ++ part'.log⟩)
    (before.report.append? part.report) (before'.report.append? part'.report)

/-- **Two combined runs in lockstep**: if runs over single configurations go alike, join alike, and
keep a relation between the sessions, then so do the combined runs, by induction on the
configurations. -/
theorem runFrom_lockstep {r : Runner} {checkers : Option (List String)}
    {Q : RunResult → RunResult → Prop} {W : Session → Session → Prop} {cs cs' : List Configuration}
    (h : List.Forall₂ (fun c c' => ∀ before before' s s', Q before before' → W s s' →
      Outcome.Alike (Joins Q before before') (r.run c checkers s).1 (r.run c' checkers s').1 ∧
        W (r.run c checkers s).2 (r.run c' checkers s').2) cs cs')
    {before before' : RunResult} (hbefore : Q before before') {s s' : Session} (hs : W s s') :
    Outcome.Alike Q (r.runFrom checkers cs before s).1 (r.runFrom checkers cs' before' s').1 ∧
      W (r.runFrom checkers cs before s).2 (r.runFrom checkers cs' before' s').2 := by
  induction h generalizing before before' s s' with
  | nil => exact ⟨.succeeded hbefore, hs⟩
  | @cons c c' cs cs' hc _ ih =>
    obtain ⟨halike, hsessions⟩ := hc _ _ _ _ hbefore hs
    rw [runFrom, runFrom]
    generalize r.run c checkers s = first at halike hsessions ⊢
    generalize r.run c' checkers s' = first' at halike hsessions ⊢
    obtain ⟨outcome, session⟩ := first
    obtain ⟨outcome', session'⟩ := first'
    cases halike with
    | failed => exact ⟨.failed, hsessions⟩
    | succeeded hjoins =>
      simp only [Joins] at hjoins ⊢
      generalize Report.append? _ _ = joined at hjoins ⊢
      generalize Report.append? _ _ = joined' at hjoins ⊢
      cases hjoins with
      | failed => exact ⟨.failed, hsessions⟩
      | succeeded hjoined => exact ih hjoined hsessions

end Runner

end GrowthAudit
