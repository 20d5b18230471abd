import GrowthAudit.Proofs.Dump.Loops
import GrowthAudit.Proofs.Run.Endings
import GrowthAudit.Proofs.Run.Locations

/-!
# What stops the program

Once the options are valid and the dump is loaded, one thing alone can stop the program: a comment
whose line cannot be read.  Nothing else fails.  The growth checker does not give up, its statistics
are integers at one key and doubles at all others and so can be added up, and their times can be
shown.

This is so for configurations that are well-formed.  In others the way out of a scope may go round
in a circle, the scan for the specifiers of a function may follow a link back to where it has been,
and the line of a token may be too long a number to be written.  Here the first two are cut short
and the third is written all the same, but in a well-formed configuration nothing is there to be
cut, and every number that is written can be.

* `Configuration.WellFormed`, `Configuration.Uncut`: what is asked of a configuration, and what
  follows for its loops.
* `Stats.Tallied`, `Report.Tallied`: statistics that can be added up and shown.
* `Runner.runFrom_stops`: what stops a combined run, by induction on the configurations.
* `Program.audit_ends_iff`: the program ends with an exit code iff it can read all comments, and
  otherwise stops with the failure of the first comment that it cannot read.
-/

namespace GrowthAudit

/-! ### Configurations -/

namespace Configuration

variable {c : Configuration}

/-- No scope is nested in itself, links of opening parentheses lead forward, and no line or column
is too long a number. -/
structure WellFormed (c : Configuration) : Prop where
  nesting : c.NestingAcyclic
  links : Token.LinksForward c.tokens
  numbers : ∀ t ∈ c.tokens, t.location.IsConvertible

/-- Both loops that are cut after a number of steps come to an end before. -/
structure Uncut (c : Configuration) : Prop where
  names : ∀ outer, c.EnclosedBy outer (c.enclosingNames c.scopes.length outer)
  scans : ∀ name, Specifiers.read? c.tokens name = some (Specifiers.ofFunction c.tokens name)

namespace WellFormed

theorem uncut (h : c.WellFormed) : c.Uncut where
  names := enclosedBy_enclosingNames h.nesting
  scans := Specifiers.read?_eq_some h.links

/-- All numbers of a place can be written. -/
theorem isConvertible (h : c.WellFormed) {l : Location} (hl : c.Located l) : l.IsConvertible := by
  obtain rfl | ⟨t, ht, rfl⟩ := hl
  · decide
  · exact h.numbers t ht

end WellFormed

end Configuration

/-! ### Statistics -/

open GrowthChecker (siteCountKey)

/-- What the growth checker records adds up: the number of sites is an integer, and the other
statistics, which are times, are doubles where they are recorded. -/
structure Stats.Tallied (stats : Stats) : Prop where
  sites : ∃ n, Stats.value stats siteCountKey = .int n
  times : ∀ key ≠ siteCountKey,
    Stats.value stats key = .int 0 ∨ ∃ x, Stats.value stats key = .float x

namespace Stats.Tallied

variable {stats : Stats}

theorem nil : Stats.Tallied [] := ⟨⟨0, rfl⟩, fun _ _ => .inl rfl⟩

/-- A number of sites can be added. -/
theorem addStat_sites (h : stats.Tallied) (n : Int) :
    ∃ stats' : Stats, Report.addStat stats (siteCountKey, .int n) = .ok stats' ∧
      stats'.Tallied := by
  obtain ⟨m, hm⟩ := h.sites
  refine ⟨setEntry siteCountKey (.int (m + n)) stats, ?_, ?_, ?_⟩
  · rw [Stats.addStat_eq, hm]
    rfl
  · exact ⟨m + n, by rw [Stats.value_setEntry, if_pos rfl]⟩
  · intro key hkey
    rw [Stats.value_setEntry, if_neg hkey]
    exact h.times key hkey

/-- A time can be added. -/
theorem addStat_time (h : stats.Tallied) {key : String} (hkey : key ≠ siteCountKey) (x : Float) :
    ∃ stats' : Stats, Report.addStat stats (key, .float x) = .ok stats' ∧ stats'.Tallied := by
  have hsum : ∃ y, (Stats.value stats key).sum (.float x) = .ok (.float y) := by
    obtain hzero | ⟨y, hy⟩ := h.times key hkey
    · rw [hzero]
      exact ⟨_, rfl⟩
    · rw [hy]
      exact ⟨_, rfl⟩
  obtain ⟨y, hy⟩ := hsum
  refine ⟨setEntry key (.float y) stats, ?_, ?_, ?_⟩
  · rw [Stats.addStat_eq, hy]
    rfl
  · obtain ⟨n, hn⟩ := h.sites
    exact ⟨n, by rw [Stats.value_setEntry, if_neg hkey.symm, hn]⟩
  · intro k hk
    rw [Stats.value_setEntry]
    split
    · exact .inr ⟨y, rfl⟩
    · exact h.times k hk

end Stats.Tallied

theorem elapsedKey_ne_siteCountKey : Report.elapsedKey growthChecker.name ≠ siteCountKey := by
  decide

namespace Report

/-- The report of runs of the growth checker. -/
structure Tallied (r : Report) : Prop where
  stats : r.stats.Tallied
  checkers : ∀ checker ∈ r.checkers, checker = growthChecker.name

theorem tallied_empty : Tallied {} where
  stats := .nil
  checkers _ h := absurd h List.not_mem_nil

variable {r : Report}

/-- The report of a further run can be joined. -/
theorem Tallied.append? (h : r.Tallied) (ds : List Diagnostic) (elapsed : Float) (n : Int) :
    ∃ joined, r.append? (({} : Report).addPass growthChecker.name ds (.float elapsed)
      [(siteCountKey, .int n)]) = .ok joined ∧ joined.Tallied := by
  have hstats : (({} : Report).addPass growthChecker.name ds (.float elapsed)
      [(siteCountKey, .int n)]).stats =
        [(elapsedKey growthChecker.name, .float elapsed), (siteCountKey, .int n)] := by
    show setEntry siteCountKey _ [(elapsedKey growthChecker.name, _)] = _
    rw [setEntry, if_neg elapsedKey_ne_siteCountKey]
    rfl
  -- first the time is added, then the number of sites
  obtain ⟨timed, htimed, htallied⟩ := h.stats.addStat_time elapsedKey_ne_siteCountKey elapsed
  obtain ⟨counted, hcounted, htallied⟩ := htallied.addStat_sites n
  have hsum : [(elapsedKey growthChecker.name, .float elapsed), (siteCountKey, .int n)].foldlM
      addStat r.stats = .ok counted := by
    rw [List.foldlM_cons, htimed]
    show [(siteCountKey, Value.int n)].foldlM addStat timed = _
    rw [List.foldlM_cons, hcounted]
    rfl
  rw [Report.append?, hstats, hsum]
  refine ⟨_, rfl, htallied, fun checker hchecker => ?_⟩
  change checker ∈ if r.checkers.contains growthChecker.name then r.checkers
    else r.checkers ++ [growthChecker.name] at hchecker
  split at hchecker
  · exact h.checkers checker hchecker
  · rcases List.mem_append.mp hchecker with hchecker | hchecker
    · exact h.checkers checker hchecker
    · exact List.mem_singleton.mp hchecker

/-- The summary can be written. -/
theorem Tallied.exists_summary (h : r.Tallied) : ∃ text, r.summary = .ok text := by
  have hline : ∀ checker ∈ r.checkers, ∃ line, r.summaryLine checker = .ok line := by
    intro checker hchecker
    rw [h.checkers checker hchecker, summaryLine]
    have htime := h.stats.times _ elapsedKey_ne_siteCountKey
    rw [Stats.value] at htime
    obtain hzero | ⟨x, hx⟩ := htime
    · rw [hzero]
      exact ⟨_, rfl⟩
    · rw [hx]
      exact ⟨_, rfl⟩
  obtain ⟨lines, hlines⟩ := Outcome.exists_mapM hline
  rw [summary, hlines]
  exact ⟨_, rfl⟩

end Report

/-! ### Runs -/

namespace Runner

variable {r : Runner} {checkers : Option (List String)} {c : Configuration}
  {cs : List Configuration} {before : RunResult} {s : Session}

theorem run_of_fault {failure : Failure} (h : c.fault? = some failure) :
    (r.run c checkers s).1 = .error failure := by
  have hload : (s.suppressions.load c.suppressions).2 = some failure := by
    rw [Suppressions.load_snd, h]
  rw [run]
  split
  · next hfailure =>
    rw [hfailure] at hload
    cases hload
    rfl
  · next hnone =>
    rw [hnone] at hload
    cases hload

theorem runFrom_cons_of_error {failure : Failure}
    (hrun : (r.run c checkers s).1 = .error failure) :
    (r.runFrom checkers (c :: cs) before s).1 = .error failure := by
  rw [runFrom]
  split
  · next h =>
    rw [h] at hrun
    exact hrun
  · next h =>
    rw [h] at hrun
    cases hrun

theorem runFrom_cons_of_ok {part : RunResult} {joined : Report}
    (hrun : (r.run c checkers s).1 = .ok part)
    (hjoined : before.report.append? part.report = .ok joined) :
    r.runFrom checkers (c :: cs) before s =
      r.runFrom checkers cs ⟨joined, before.log ++ part.log⟩ (r.run c checkers s).2 := by
  rw [runFrom]
  split
  · next h =>
    rw [h] at hrun
    cases hrun
  · next h =>
    rw [h] at hrun ⊢
    cases hrun
    rw [hjoined]

/-- **What stops a combined run** of the growth checker under valid options: the first comment that
cannot be read, by induction on the configurations. -/
theorem runFrom_stops {settings : Settings} (hselect : (r.select checkers).1 = [growthChecker])
    (hsettings : Settings.ofOptions r.options = .ok settings)
    (hbefore : before.report.Tallied) (hclock : s.clock.ReadsDoubles) :
    Outcome.Stops (fun after : RunResult => after.report.Tallied) (cs.findSome? (·.fault?))
      (r.runFrom checkers cs before s).1 := by
  induction cs generalizing before s with
  | nil => exact .succeeded hbefore
  | cons c cs ih =>
    rw [List.findSome?_cons]
    cases hfault : c.fault? with
    | some failure =>
      rw [runFrom_cons_of_error (run_of_fault hfault)]
      exact .failed
    | none =>
      have hload : (s.suppressions.load c.suppressions).2 = none := by
        rw [Suppressions.load_snd, hfault]
      obtain ⟨⟨ds, log, elapsed, n, hrun⟩, hafter⟩ :=
        run_growthChecker hselect hsettings hload hclock
      obtain ⟨joined, hjoined, htallied⟩ := hbefore.append? ds elapsed n
      rw [runFrom_cons_of_ok hrun hjoined]
      exact ih htallied hafter

end Runner

/-! ### The program -/

namespace Program

section

variable {cs : List Configuration} {suppress : List String} {options : Value} {clock : Clock}
  {settings : Settings}

theorem exists_render {r : Report} (h : r.Tallied) (format : OutputFormat) :
    ∃ output, render format r = .ok output := by
  cases format with
  | json => exact ⟨_, rfl⟩
  | gcc => exact ⟨_, rfl⟩
  | summary =>
    obtain ⟨text, htext⟩ := h.exists_summary
    rw [render, htext]
    exact ⟨_, rfl⟩

theorem report_stops (format : OutputFormat)
    (hsettings : Settings.ofOptions options = .ok settings) (hclock : clock.ReadsDoubles) :
    Outcome.Stops (fun result : ProgramResult => result.exit ≠ .unusable)
      (cs.findSome? (·.fault?)) (report cs format suppress options clock) := by
  have hruns : Outcome.Stops (fun after : RunResult => after.report.Tallied)
      (cs.findSome? (·.fault?)) (Runner.runAll { options } cs none (session suppress clock)).1 :=
    Runner.runFrom_stops rfl hsettings Report.tallied_empty hclock
  refine hruns.bind fun run hrun => ?_
  obtain ⟨output, houtput⟩ := exists_render hrun format
  rw [houtput]
  refine ⟨_, rfl, ?_⟩
  show (if run.report.findingCount = 0 then ExitCode.clean else .findings) ≠ .unusable
  split <;> decide

/-- Over a dump that was loaded, under valid options, the program stops with the first comment that
it cannot read, or ends with the code for findings or for none. -/
theorem audit_stops {reader : DumpReader} {path : String} (format : OutputFormat)
    (suppress : List String) (hsettings : Settings.ofOptions options = .ok settings)
    (hload : reader.load path = .ok cs) (hclock : clock.ReadsDoubles) :
    Outcome.Stops (fun result => result.exit ≠ .unusable) (cs.findSome? (·.fault?))
      (audit reader path format suppress options clock) := by
  rw [audit, hsettings]
  simp only [hload]
  exact (report_stops format hsettings hclock).bind fun result hresult => ⟨_, rfl, hresult⟩

/-- All numbers in what is shown of well-formed configurations can be written. -/
theorem isConvertible_of_diagnosticsOf (hsettings : Settings.ofOptions options = .ok settings)
    (hcs : ∀ c ∈ cs, c.WellFormed) {ds : List Diagnostic}
    (h : diagnosticsOf cs suppress options clock = .ok ds) :
    ∀ d ∈ ds, ∀ l ∈ d.locations, l.IsConvertible := by
  intro d hd l hl
  obtain ⟨run, hrun, h⟩ := Outcome.of_bind_eq_ok h
  cases h
  obtain ⟨c, hc, hlocated⟩ := Runner.located_of_mem_reported hsettings
    (Runner.reported_of_runAll hrun ▸ hd)
  exact (hcs c hc).isConvertible (hlocated l hl)

/-- **The program ends with an exit code** over well-formed configurations that were loaded, under
valid options, iff the line of each comment that names an id, a file and a line can be read.
Otherwise it stops with the failure of the first comment whose line cannot.  No loop is cut short on
the way, and every number that is written can be. -/
theorem audit_ends_iff {reader : DumpReader} {path : String} (format : OutputFormat)
    (suppress : List String) (hsettings : Settings.ofOptions options = .ok settings)
    (hload : reader.load path = .ok cs) (hcs : ∀ c ∈ cs, c.WellFormed)
    (hclock : clock.ReadsDoubles) :
    ((∃ result, audit reader path format suppress options clock = .ok result ∧
        (result.exit.toNat = 0 ∨ result.exit.toNat = 1)) ↔
      ∀ c ∈ cs, ∀ comment ∈ c.suppressions, comment.id ≠ "" → comment.file ≠ "" →
        comment.line.isTruthy = true → ∃ n, SuppressionComment.lineNumber comment.line = .ok n) ∧
      (∀ failure, audit reader path format suppress options clock = .error failure ↔
        cs.findSome? (·.fault?) = some failure) ∧
      (∀ c ∈ cs, c.Uncut) ∧
      ∀ ds, diagnosticsOf cs suppress options clock = .ok ds →
        ∀ d ∈ ds, ∀ l ∈ d.locations, l.IsConvertible := by
  have hstops := audit_stops format suppress hsettings hload hclock
  refine ⟨?_, hstops.error_iff, fun c hc => (hcs c hc).uncut,
    fun ds hds => isConvertible_of_diagnosticsOf hsettings hcs hds⟩
  have hcode : ∀ result : ProgramResult,
      (result.exit.toNat = 0 ∨ result.exit.toNat = 1) ↔ result.exit ≠ .unusable := by
    intro result
    cases result.exit <;> decide
  simp only [hcode]
  rw [hstops.ok_iff, List.findSome?_eq_none_iff]
  simp only [Configuration.fault?_eq_none_iff, Configuration.Readable,
    SuppressionComment.readable_iff]

end

/-- A comment at the line `abc`. -/
def illegible : Configuration where
  suppressions := [{ id := "x", file := "a.cpp", line := .str "abc" }]

theorem wellFormed_throwingVector : throwingVector.WellFormed where
  nesting := Configuration.nestingAcyclic_of_rank id (by decide)
  links := by decide
  numbers := by decide

/-- Over `throwingVector` alone the program ends, with a clock that goes on by half a second. -/
theorem audit_ends_iff_sample :
    Settings.ofOptions .null = .ok {} ∧ throwingDump.load "a.dump" = .ok [throwingVector] ∧
      (∀ c ∈ [throwingVector], c.WellFormed) ∧
      Clock.ReadsDoubles ⟨[.float 0.0, .float 0.5]⟩ ∧
      ∃ result, audit throwingDump "a.dump" .summary [] .null ⟨[.float 0.0, .float 0.5]⟩ =
        .ok result ∧ (result.exit.toNat = 0 ∨ result.exit.toNat = 1) := by
  have hcs : ∀ c ∈ [throwingVector], c.WellFormed :=
    List.forall_mem_singleton.mpr wellFormed_throwingVector
  have hclock : Clock.ReadsDoubles ⟨[.float 0.0, .float 0.5]⟩ := by
    intro t ht
    rcases List.mem_pair.mp ht with rfl | rfl
    · exact ⟨_, rfl⟩
    · exact ⟨_, rfl⟩
  refine ⟨rfl, rfl, hcs, hclock, (audit_ends_iff .summary [] rfl rfl hcs hclock).1.mpr ?_⟩
  intro c hc comment hcomment
  rw [List.mem_singleton.mp hc] at hcomment
  exact absurd hcomment List.not_mem_nil

/-- A dump with a comment at the line `abc` is loaded, but the program does not end. -/
theorem audit_illegible :
    Settings.ofOptions .null = .ok {} ∧
      (DumpReader.reader fun _ => .ok [illegible]).load "a.dump" = .ok [illegible] ∧
      audit (.reader fun _ => .ok [illegible]) "a.dump" .json [] .null {} =
        .error (.badLine "abc" .notANumber) ∧
      ¬ ∃ result, audit (.reader fun _ => .ok [illegible]) "a.dump" .json [] .null {} =
        .ok result := by
  have hstops : audit (.reader fun _ => .ok [illegible]) "a.dump" .json [] .null {} =
      .error (.badLine "abc" .notANumber) := rfl
  refine ⟨rfl, rfl, hstops, ?_⟩
  rintro ⟨result, hresult⟩
  rw [hstops] at hresult
  cases hresult

end Program

end GrowthAudit
