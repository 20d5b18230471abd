import GrowthAudit.Checker.Scripted
import GrowthAudit.Proofs.Dump.Headings
import GrowthAudit.Proofs.Run.Coverage

/-!
# What each checker contributes

The report of a run is put together from contributions, one of each selected checker.  A checker
contributes what it has produced, without what is hidden, or if it gave up one complaint, which is
never hidden.  What it produces depends on the options and the configuration alone, so the
suppressions of a run matter for nothing but what is hidden.

* `Runner.produced`, `Runner.complaint`, `Runner.contribution`: the parts of a report.
* `Runner.contributions_of_run`: the diagnostics of a run are the contributions of its checkers.
* `Runner.covers_run`: what the session of a run covers afterwards.
* `Checker.Standard`: the checkers that are built in, or follow a script.  They do not even read the
  suppressions of a configuration (`Checker.Standard.inspect_eq`).
* `Registry.Standard`: a registry of such checkers, from which nothing else is selected.
-/

namespace GrowthAudit

/-! ### Checkers -/

/-- The growth checker, or a checker that follows a script. -/
inductive Checker.Standard : Checker → Prop
  | growth : Standard growthChecker
  | scripted (script : Script) : Standard script.checker

/-- What a standard checker answers does not depend on the suppressions of the configuration. -/
theorem Checker.Standard.inspect_eq {checker : Checker} (h : checker.Standard) (options : Value)
    (c : Configuration) (suppressions : List SuppressionComment) :
    checker.inspect options { c with suppressions } = checker.inspect options c := by
  cases h with
  | growth =>
    simp only [growthChecker, GrowthChecker.inspect, Configuration.containerSites_comments]
  | scripted script => rfl

/-- All checkers that are registered are standard checkers. -/
def Registry.Standard (registry : Registry) : Prop := ∀ e ∈ registry.checkers, e.2.Standard

theorem Registry.Standard.register {registry : Registry} (h : registry.Standard)
    {checker : Checker} (hchecker : checker.Standard) : (registry.register checker).Standard := by
  intro e he
  rcases mem_setEntry he with rfl | he
  · exact hchecker
  · exact h e he

theorem Registry.standard_standard : Registry.standard.Standard := by
  intro e he
  rcases mem_setEntry he with rfl | he
  · exact .growth
  · cases he

/-- Whatever is selected is registered. -/
theorem Runner.exists_mem_of_mem_select {r : Runner} {checkers : Option (List String)}
    {checker : Checker} (h : checker ∈ (r.select checkers).1) :
    ∃ name, (name, checker) ∈ r.registry.checkers := by
  cases checkers with
  | none =>
    obtain ⟨⟨name, _⟩, he, rfl⟩ := List.mem_map.mp h
    exact ⟨name, (List.mem_filter.mp he).1⟩
  | some names =>
    rw [select] at h
    induction names with
    | nil => cases h
    | cons name names ih =>
      rw [byNames] at h
      cases hname : r.registry.get? name with
      | none =>
        simp only [hname] at h
        exact ih h
      | some registered =>
        simp only [hname] at h
        rcases List.mem_cons.mp h with rfl | h
        · exact ⟨name, mem_of_lookup hname⟩
        · exact ih h

theorem Registry.Standard.of_mem_select {r : Runner} (h : r.registry.Standard)
    {checkers : Option (List String)} {checker : Checker} (hmem : checker ∈ (r.select checkers).1) :
    checker.Standard := by
  obtain ⟨name, he⟩ := Runner.exists_mem_of_mem_select hmem
  exact h _ he

/-- The checker gives up on the configuration, with an error that is reported. -/
def Checker.GivesUp (checker : Checker) (options : Value) (c : Configuration) (e : AuditError) :
    Prop :=
  (checker.inspect options c).result = .error (.audit e)

/-- A script that is to fail with an audit error makes its checker give up, in whatever phase this
is.  In the last phase the option has been shown before. -/
theorem Script.givesUp {script : Script} {phase : CheckerPhase} {e : AuditError} {options : Value}
    (hfailure : script.failure = some (phase, .audit e))
    (hshown : ∃ shown, script.showOption options = .ok shown) (c : Configuration) :
    script.checker.GivesUp options c e := by
  obtain ⟨shown, hshown⟩ := hshown
  have hfails : ∀ p, script.failureIn? p = if phase = p then some (.audit e) else none := by
    intro p
    by_cases hp : phase = p <;> simp [failureIn?, hfailure, Option.filter, hp]
  show (script.inspect options).result = _
  cases phase <;> simp [inspect, hfails, hshown]

namespace Runner

variable {options : Value} {c : Configuration} {hidden hidden' : Diagnostic → Bool}
  {checker : Checker}

/-! ### Contributions -/

/-- What a checker produces for a configuration.  Nothing is suppressed yet. -/
def produced (options : Value) (c : Configuration) (checker : Checker) : List Diagnostic :=
  match (checker.inspect options c).result with
  | .ok ds => ds
  | .error _ => []

/-- The complaint about a checker that gave up. -/
def complaint (options : Value) (c : Configuration) (checker : Checker) : List Diagnostic :=
  match (checker.inspect options c).result with
  | .error (.audit e) => [internalError checker.name e]
  | _ => []

/-- What a checker contributes to a report in which some diagnostics are hidden. -/
def contribution (options : Value) (c : Configuration) (hidden : Diagnostic → Bool)
    (checker : Checker) : List Diagnostic :=
  (produced options c checker).filter (!hidden ·) ++ complaint options c checker

theorem contribution_of_givesUp {e : AuditError} (h : checker.GivesUp options c e) :
    contribution options c hidden checker = [internalError checker.name e] := by
  rw [Checker.GivesUp] at h
  simp [contribution, produced, complaint, h]

/-- A contribution depends on whether the diagnostics that were produced are hidden. -/
theorem contribution_congr (h : ∀ d ∈ produced options c checker, hidden d = hidden' d) :
    contribution options c hidden checker = contribution options c hidden' checker := by
  rw [contribution, contribution, List.filter_congr]
  intro d hd
  rw [h d hd]

/-- What is shown of a checker is its contribution. -/
theorem Pass.eq_contribution {suppressions : Suppressions} {ds : List Diagnostic}
    (h : Pass options c suppressions checker ds) :
    ds = contribution options c suppressions.covers checker := by
  obtain ⟨log, hshown⟩ := h
  rw [contribution, produced, complaint]
  cases hresult : (checker.inspect options c).result with
  | ok produced =>
    rw [hresult, shown] at hshown
    cases hshown
    rw [List.append_nil, Suppressions.filter]
  | error failure =>
    rw [hresult] at hshown
    cases failure with
    | audit e =>
      cases hshown
      rfl
    | _ => cases hshown

/-- The passes of checkers are their contributions, each at its place. -/
theorem flatten_passes {suppressions : Suppressions} {checkers : List Checker}
    {passes : List (List Diagnostic)}
    (h : List.Forall₂ (Pass options c suppressions) checkers passes) :
    passes.flatten = checkers.flatMap (contribution options c suppressions.covers) := by
  induction h with
  | nil => rfl
  | cons hpass _ ih => rw [List.flatten_cons, List.flatMap_cons, ih, hpass.eq_contribution]

/-- What a selection of checkers contributes. -/
def contributions (r : Runner) (checkers : Option (List String)) (c : Configuration)
    (hidden : Diagnostic → Bool) : List Diagnostic :=
  (r.select checkers).1.flatMap (contribution r.options c hidden)

/-- Standard checkers contribute the same whatever the comments of the configuration are. -/
theorem contributions_comments {r : Runner} {checkers : Option (List String)}
    (h : ∀ checker ∈ (r.select checkers).1, checker.Standard) (c : Configuration)
    (suppressions : List SuppressionComment) (hidden : Diagnostic → Bool) :
    r.contributions checkers { c with suppressions } hidden = r.contributions checkers c hidden := by
  refine List.flatMap_congr fun checker hmem => ?_
  simp only [contribution, produced, complaint, (h checker hmem).inspect_eq]

section

variable {r : Runner} {checkers : Option (List String)} {s : Session} {result : RunResult}

/-- The session of a run covers in addition what the configuration suppresses. -/
theorem covers_run (h : (r.run c checkers s).1 = .ok result) (d : Diagnostic) :
    (r.run c checkers s).2.suppressions.covers d =
      (s.suppressions.covers d || c.suppresses d) := by
  have hload := load_of_run h
  rw [run_of_load hload, Suppressions.covers_load _ d hload, Configuration.suppresses]

/-- **The diagnostics of a run** are the contributions of the selected checkers, without what was
suppressed before or is suppressed by the configuration. -/
theorem contributions_of_run (h : (r.run c checkers s).1 = .ok result) :
    result.report.diagnostics =
      r.contributions checkers c fun d => s.suppressions.covers d || c.suppresses d := by
  obtain ⟨passes, hpasses, hall⟩ := passes_of_run h
  have hcovers : (s.suppressions.load c.suppressions).1.covers =
      fun d => s.suppressions.covers d || c.suppresses d := by
    funext d
    exact Suppressions.covers_load _ d (load_of_run h)
  rw [hall, flatten_passes hpasses, hcovers, contributions]

end

end Runner

end GrowthAudit
