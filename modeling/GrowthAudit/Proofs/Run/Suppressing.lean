import GrowthAudit.Proofs.Run.Depth
import GrowthAudit.Proofs.Run.OutputLines
import Mathlib.Data.List.Basic

/-!
# Two runs of which one suppresses more

Whoever suppresses more sees less, and nothing else.  Suppressions only accumulate during a run, and
each configuration adds the same ones whatever is in force before.  So a state that is within
another one stays within it, and what is shown under the larger state is a part of what is shown
under the smaller one.  The diagnostic of a checker that gives up passes by the suppressions in both
runs.

* `Suppressions.Within`: all that one state suppresses the other one suppresses, too.
* `RunResult.Trimmed`: the second of two results lacks diagnostics of the first and differs in
  nothing else that is counted or logged.
* `Runner.run_trimmed`, `Runner.runFrom_trimmed`: what holds at the start of a configuration holds
  at its end, and so for all configurations, by induction.
* `Program.audit_suppress_subset`: the same for the whole program, its output and its exit code.
-/

namespace GrowthAudit

namespace Suppressions

/-- Every suppression of `s` is in force in `s'`. -/
structure Within (s s' : Suppressions) : Prop where
  everywhere : s.everywhere ⊆ s'.everywhere
  lines : s.lines ⊆ s'.lines
  files : s.files ⊆ s'.files

variable {s s' : Suppressions}

theorem Within.covers (h : s.Within s') {d : Diagnostic} (hcovers : s.covers d = true) :
    s'.covers d = true := by
  simp only [Suppressions.covers, Bool.or_eq_true, List.any_eq_true] at hcovers ⊢
  rcases hcovers with (⟨id, hid, hmeans⟩ | ⟨above, habove, e, he, hmeans⟩) | ⟨e, he, hmeans⟩
  · exact .inl (.inl ⟨id, h.everywhere hid, hmeans⟩)
  · exact .inl (.inr ⟨above, habove, e, h.lines he, hmeans⟩)
  · exact .inr ⟨e, h.files he, hmeans⟩

theorem Within.filter (h : s.Within s') (ds : List Diagnostic) :
    (s'.filter ds).Sublist (s.filter ds) := by
  refine List.monotone_filter_right ds fun d hd => ?_
  rw [Bool.not_eq_true', ← Bool.not_eq_true] at hd ⊢
  exact fun hcovers => hd (h.covers hcovers)

theorem Within.add (h : s.Within s') (entry : Suppression) : (s.add entry).Within (s'.add entry) := by
  obtain ⟨id, reach⟩ := entry
  cases reach with
  | everywhere => exact { h with everywhere := List.cons_subset_cons _ h.everywhere }
  | line file line => exact { h with lines := List.cons_subset_cons _ h.lines }
  | files pattern => exact { h with files := List.cons_subset_cons _ h.files }

/-- Comments are read alike whatever is in force, up to the same one. -/
theorem Within.load (h : s.Within s') (comments : List SuppressionComment) :
    (s.load comments).1.Within (s'.load comments).1 ∧
      (s.load comments).2 = (s'.load comments).2 := by
  induction comments generalizing s s' with
  | nil => exact ⟨h, rfl⟩
  | cons comment comments ih =>
    rw [Suppressions.load, Suppressions.load]
    cases comment.suppression? with
    | error failure => exact ⟨h, rfl⟩
    | ok entry? =>
      cases entry? with
      | none => exact ih h
      | some entry => exact ih (h.add entry)

/-- Suppressing ids everywhere adds them to those that are suppressed everywhere. -/
theorem foldl_add_everywhere (ids : List String) (s : Suppressions) :
    ids.foldl (fun s id => s.add ⟨id, .everywhere⟩) s =
      { s with everywhere := ids.reverse ++ s.everywhere } := by
  induction ids generalizing s with
  | nil => rfl
  | cons id ids ih =>
    rw [List.foldl_cons, ih, List.reverse_cons, List.append_assoc]
    rfl

end Suppressions

/-- The second session suppresses at least as much, and the clocks show the same. -/
structure Session.Within (s s' : Session) : Prop where
  suppressions : s.suppressions.Within s'.suppressions
  clock : s.clock = s'.clock

/-- The second report lacks some diagnostics of the first. -/
structure Report.Trimmed (r r' : Report) : Prop where
  diagnostics : r'.diagnostics.Sublist r.diagnostics
  stats : r.stats = r'.stats
  checkers : r.checkers = r'.checkers

/-- The report of the second result lacks some diagnostics, and the log is the same. -/
structure RunResult.Trimmed (r r' : RunResult) : Prop where
  report : r.report.Trimmed r'.report
  log : r.log = r'.log

theorem RunResult.Trimmed.refl (r : RunResult) : r.Trimmed r :=
  ⟨⟨List.Sublist.refl _, rfl, rfl⟩, rfl⟩

namespace Runner

open Outcome

/-- Of what a checker answers, less is shown. -/
theorem shown_trimmed {s s' : Suppressions} (h : s.Within s') (checker : String)
    (answer : Except Failure (List Diagnostic)) :
    Alike (fun p p' => p'.1.Sublist p.1 ∧ p.2 = p'.2) (shown s checker answer)
      (shown s' checker answer) := by
  cases answer with
  | ok ds => exact .succeeded ⟨h.filter ds, rfl⟩
  | error failure =>
    cases failure with
    | audit e => exact .succeeded ⟨List.Sublist.refl _, rfl⟩
    | _ => exact .failed

/-- Results stay trimmed behind a checker of which less is shown. -/
theorem goesOn_trimmed {p p' : List Diagnostic × List LogRecord}
    (h : p'.1.Sublist p.1 ∧ p.2 = p'.2) (checker : String) (recorded : Stats) :
    GoesOn (fun r stats r' stats' => r.Trimmed r' ∧ stats = stats') checker recorded recorded
      p p' := by
  obtain ⟨hds, hlog⟩ := h
  rintro before stats before' _ elapsed ⟨hbefore, rfl⟩
  refine ⟨⟨⟨hbefore.report.diagnostics.append hds, ?_, ?_⟩, ?_⟩, rfl⟩
  · simp only [Report.addPass, hbefore.report.stats]
  · simp only [Report.addPass, hbefore.report.checkers]
  · simp only [hbefore.log, hlog]

/-- One configuration: the results are trimmed, and afterwards still more is suppressed. -/
theorem run_trimmed (r : Runner) (c : Configuration) (checkers : Option (List String))
    {s s' : Session} (h : s.Within s') :
    Alike RunResult.Trimmed (r.run c checkers s).1 (r.run c checkers s').1 ∧
      (r.run c checkers s).2.Within (r.run c checkers s').2 := by
  obtain ⟨hwithin, hfailure⟩ := h.suppressions.load c.suppressions
  rw [run, run]
  generalize s.suppressions.load c.suppressions = loaded at hwithin hfailure ⊢
  generalize s'.suppressions.load c.suppressions = loaded' at hwithin hfailure ⊢
  obtain ⟨suppressions, failure⟩ := loaded
  obtain ⟨suppressions', _⟩ := loaded'
  obtain rfl : failure = _ := hfailure
  cases failure with
  | some failure => exact ⟨.failed, hwithin, h.clock⟩
  | none =>
    have hcheckers : ∀ checker ∈ (r.select checkers).1,
        Alike
          (GoesOn (fun r stats r' stats' => r.Trimmed r' ∧ stats = stats') checker.name
            (checker.inspect r.options c).stats (checker.inspect r.options c).stats)
          (shown suppressions checker.name (checker.inspect r.options c).result)
          (shown suppressions' checker.name (checker.inspect r.options c).result) := by
      intro checker _
      exact (shown_trimmed hwithin _ _).mono fun _ _ hpass => goesOn_trimmed hpass _ _
    obtain ⟨halike, hclock⟩ := runCheckers_lockstep hcheckers s.clock
      ⟨RunResult.Trimmed.refl { log := (r.select checkers).2 }, rfl⟩
    rw [← h.clock]
    refine ⟨halike.mono ?_, hwithin, hclock⟩
    rintro _ _ ⟨_, _, htrimmed, -⟩
    exact htrimmed

/-- Trimmed reports join to trimmed reports, or fail to join alike. -/
theorem append?_trimmed {r r' part part' : Report} (h : r.Trimmed r') (hpart : part.Trimmed part') :
    Alike Report.Trimmed (r.append? part) (r'.append? part') := by
  rw [Report.append?, Report.append?, h.stats, hpart.stats]
  refine (Alike.of_refl (fun _ => rfl) _).bind fun stats _ hstats => .succeeded ?_
  refine ⟨h.diagnostics.append hpart.diagnostics, hstats, ?_⟩
  simp only [h.checkers, hpart.checkers]

/-- All configurations: what one of them keeps, the whole list keeps. -/
theorem runFrom_trimmed (r : Runner) (checkers : Option (List String)) (cs : List Configuration)
    {result result' : RunResult} (hresult : result.Trimmed result') {s s' : Session}
    (h : s.Within s') :
    Alike RunResult.Trimmed (r.runFrom checkers cs result s).1
        (r.runFrom checkers cs result' s').1 ∧
      (r.runFrom checkers cs result s).2.Within (r.runFrom checkers cs result' s').2 := by
  refine runFrom_lockstep (List.forall₂_same.mpr fun c _ before before' s s' hbefore hs => ?_)
    hresult h
  obtain ⟨halike, hwithin⟩ := r.run_trimmed c checkers hs
  refine ⟨halike.mono fun part part' hpart => ?_, hwithin⟩
  refine (append?_trimmed hbefore.report hpart.report).mono fun report report' hreport => ?_
  exact ⟨hreport, by rw [hbefore.log, hpart.log]⟩

end Runner

/-! ### The whole program -/

open Outcome

namespace Report

variable {r r' : Report}

theorem Trimmed.summary (h : r.Trimmed r') : Alike (fun _ _ => True) r.summary r'.summary := by
  rw [Report.summary, Report.summary, ← h.checkers]
  refine (Alike.mapM fun checker _ => ?_).bind fun _ _ _ => .succeeded trivial
  rw [summaryLine, summaryLine, ← h.stats]
  cases timeText ((r.stats.lookup (elapsedKey checker)).getD (.int 0)) with
  | error failure => exact .failed
  | ok time => exact .succeeded trivial

theorem Trimmed.findingCount (h : r.Trimmed r') : r'.findingCount ≤ r.findingCount :=
  h.diagnostics.countP_le

end Report

/-- The lines of the second output are some of those of the first, where they are JSON texts, and if
the first run found nothing, then neither did the second. -/
structure ProgramResult.Trimmed (format : OutputFormat) (r r' : ProgramResult) : Prop where
  lines : format = .json →
    (r'.output.toList.splitOn '\n').Sublist (r.output.toList.splitOn '\n')
  clean : r.exit = .clean → r'.exit = .clean

theorem ProgramResult.Trimmed.refl (format : OutputFormat) (r : ProgramResult) :
    r.Trimmed format r :=
  ⟨fun _ => List.Sublist.refl _, id⟩

namespace Program

theorem session_within {suppress suppress' : List String} (h : suppress ⊆ suppress')
    (clock : Clock) : (session suppress clock).Within (session suppress' clock) := by
  refine ⟨?_, rfl⟩
  rw [session, session, Suppressions.foldl_add_everywhere, Suppressions.foldl_add_everywhere]
  refine ⟨?_, List.Subset.refl _, List.Subset.refl _⟩
  intro id hid
  rw [List.append_nil, List.mem_reverse] at hid ⊢
  exact h hid

/-- Texts of trimmed reports: the lines of JSON are trimmed, and no other format goes wrong in one
of them alone. -/
theorem render_trimmed {r r' : Report} (h : r.Trimmed r') (format : OutputFormat) :
    Alike (fun output output' => format = .json →
        (output'.toList.splitOn '\n').Sublist (output.toList.splitOn '\n'))
      (render format r) (render format r') := by
  cases format with
  | json =>
    refine .succeeded fun _ => ?_
    rw [splitOn_jsonLines, splitOn_jsonLines]
    exact (h.diagnostics.map _).append (List.Sublist.refl _)
  | gcc => exact .succeeded nofun
  | summary =>
    rw [render, render]
    exact h.summary.bind fun _ _ _ => .succeeded nofun

/-- What the standard checkers show of configurations. -/
def diagnosticsOf (cs : List Configuration) (suppress : List String) (options : Value)
    (clock : Clock) : Except Failure (List Diagnostic) := do
  let result ← (Runner.runAll { options } cs none (session suppress clock)).1
  return result.report.diagnostics

section

variable {suppress suppress' : List String} (h : suppress ⊆ suppress') (options : Value)
  (clock : Clock)

include h

theorem runAll_trimmed (cs : List Configuration) :
    Alike RunResult.Trimmed (Runner.runAll { options } cs none (session suppress clock)).1
      (Runner.runAll { options } cs none (session suppress' clock)).1 :=
  (Runner.runFrom_trimmed _ none cs (RunResult.Trimmed.refl {}) (session_within h clock)).1

theorem report_trimmed (cs : List Configuration) (format : OutputFormat) :
    Alike (ProgramResult.Trimmed format) (report cs format suppress options clock)
      (report cs format suppress' options clock) := by
  rw [report, report]
  refine (runAll_trimmed h options clock cs).bind fun result result' hresult => ?_
  refine (render_trimmed hresult.report format).bind fun output output' houtput => ?_
  refine .succeeded ⟨houtput, fun hclean => ?_⟩
  have hnone : result.report.findingCount = 0 := by
    by_contra hsome
    rw [if_neg hsome] at hclean
    cases hclean
  exact if_pos (Nat.le_zero.mp (hnone ▸ hresult.report.findingCount))

/-- **Suppressing more never reports more.**  If all ids that are suppressed in a first run are
suppressed in a second one, then the two fail alike, or the second one shows some of the diagnostics
of the first, unchanged and in their order.  For the program this means that the lines of its JSON
output are among those of the first run, in the same order, and that it finds nothing where the
first run found nothing. -/
theorem audit_suppress_subset :
    (∀ cs, Alike (fun ds ds' => ds'.Sublist ds) (diagnosticsOf cs suppress options clock)
      (diagnosticsOf cs suppress' options clock)) ∧
    ∀ reader path format, Alike (ProgramResult.Trimmed format)
      (audit reader path format suppress options clock)
      (audit reader path format suppress' options clock) := by
  constructor
  · intro cs
    rw [diagnosticsOf, diagnosticsOf]
    exact (runAll_trimmed h options clock cs).bind
      fun _ _ hresult => .succeeded hresult.report.diagnostics
  · intro reader path format
    rw [audit, audit]
    split
    · exact .succeeded (.refl format _)
    · exact .failed
    · split
      · exact .succeeded (.refl format _)
      · exact .failed
      · exact (report_trimmed h options clock _ format).bind
          fun _ _ hresult => .succeeded ⟨hresult.lines, hresult.clean⟩

end

/-- A dump of `throwingVector`. -/
def throwingDump : DumpReader := .reader fun _ => .ok [throwingVector]

/-- Over `throwingVector` the finding is shown as long as its id is not suppressed. -/
theorem audit_suppress_subset_sample :
    ["style"] ⊆ ["vectorPessimization", "style"] ∧
      (∃ ds ds', diagnosticsOf [throwingVector] ["style"] .null {} = .ok ds ∧
        diagnosticsOf [throwingVector] ["vectorPessimization", "style"] .null {} = .ok ds' ∧
        ds'.Sublist ds ∧ ds.map (·.location) = [⟨"a.cpp", 2, 6⟩] ∧ ds' = []) ∧
      ∃ r r', audit throwingDump "a.dump" .json ["style"] .null {} = .ok r ∧
        audit throwingDump "a.dump" .json ["vectorPessimization", "style"] .null {} = .ok r' ∧
        r.Trimmed .json r' ∧ r.exit = .findings ∧ r'.exit = .clean := by
  have hsubset : ["style"] ⊆ ["vectorPessimization", "style"] := by decide
  obtain ⟨hdiagnostics, hprogram⟩ := audit_suppress_subset hsubset .null {}
  refine ⟨hsubset, ⟨_, _, rfl, rfl, ?_, ?_, ?_⟩, _, _, rfl, rfl, ?_, ?_, ?_⟩
  · cases hdiagnostics [throwingVector] with
    | succeeded hds => exact hds
  · decide +kernel
  · decide +kernel
  · cases hprogram throwingDump "a.dump" .json with
    | succeeded hresult => exact hresult
  · decide +kernel
  · decide +kernel

end Program

end GrowthAudit
