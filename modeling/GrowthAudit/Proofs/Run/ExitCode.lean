import GrowthAudit.Proofs.Run.Combined

/-!
# Exit codes

The exit code is chosen by the number of findings, and the output is made of all diagnostics.  The
two agree because the options are checked before anything else: once they are valid, the growth
checker gives up on no configuration, and whatever it reports is a finding.

* `Settings.id_of_ofOptions_eq_error`: every error about options is a bad configuration.
* `DumpReader.Refuses`, `DumpReader.refuses_iff`: why a dump cannot be loaded.
* `Runner.id_of_mem_reported`: under valid options only findings are reported.
* `Program.Agrees`, `Program.audit_agrees`: exit code, output and cause agree.
-/

namespace GrowthAudit

/-! ### Options that are refused -/

namespace Settings

variable {e : AuditError}

theorem id_of_depth_eq_error {v : Value} (h : depth v = .error (.audit e)) :
    e.id = "badConfiguration" := by
  rw [depth.eq_def] at h
  split at h
  · split at h
    · cases h
      rfl
    · cases h
  · cases h
    rfl

/-- An item that names no container is not reported as an error of the options. -/
theorem containerName?_ne_audit (item : Value) : containerName? item ≠ .error (.audit e) := by
  intro h
  rw [containerName?.eq_def] at h
  split at h
  · cases h
  · split at h <;> cases h

theorem mapM_containerName?_ne_audit (items : List Value) :
    items.mapM containerName? ≠ .error (.audit e) := by
  intro h
  induction items with
  | nil => cases h
  | cons item items ih =>
    rw [List.mapM_cons] at h
    obtain h | ⟨name, -, h⟩ := Outcome.of_bind_eq_error h
    · exact containerName?_ne_audit item h
    · obtain h | ⟨names, -, h⟩ := Outcome.of_bind_eq_error h
      · exact ih h
      · cases h

theorem id_of_containerNames_eq_error {items : List Value}
    (h : containerNames items = .error (.audit e)) : e.id = "badConfiguration" := by
  obtain h | ⟨names, -, h⟩ := Outcome.of_bind_eq_error h
  · exact absurd h (mapM_containerName?_ne_audit items)
  · split at h
    · cases h
      rfl
    · cases h

theorem containerItems_ne_audit (v : Value) : containerItems v ≠ .error (.audit e) := by
  intro h
  rw [containerItems.eq_def] at h
  split at h <;> cases h

theorem id_of_containersOf_eq_error {options : Value}
    (h : containersOf options = .error (.audit e)) : e.id = "badConfiguration" := by
  obtain ⟨v, -, h⟩ := Outcome.of_elim_eq_error h
  obtain h | ⟨items, -, h⟩ := Outcome.of_bind_eq_error h
  · exact absurd h (containerItems_ne_audit v)
  · exact id_of_containerNames_eq_error h

/-- **Every error about options is a bad configuration.** -/
theorem id_of_ofOptions_eq_error {options : Value} (h : ofOptions options = .error (.audit e)) :
    e.id = "badConfiguration" := by
  rw [ofOptions.eq_def] at h
  split at h
  · cases h
  · split at h
    · obtain h | ⟨maxDepth, -, h⟩ := Outcome.of_bind_eq_error h
      · obtain ⟨v, -, h⟩ := Outcome.of_elim_eq_error h
        exact id_of_depth_eq_error h
      · obtain h | ⟨containers, -, h⟩ := Outcome.of_bind_eq_error h
        · exact id_of_containersOf_eq_error h
        · cases h
    · cases h

end Settings

/-! ### Dumps that cannot be loaded -/

/-- The dump cannot be loaded: the reader is not installed, says so itself, or fails in one of the
ways that are known of it. -/
inductive DumpReader.Refuses (path : String) : DumpReader → AuditError → Prop
  | missing : Refuses path .missing (.dumpNotLoaded path "cppcheckdata module not found")
  | refused {read : String → Except Failure (List Configuration)} {e : AuditError} :
      read path = .error (.audit e) → Refuses path (.reader read) e
  | unreadable {read : String → Except Failure (List Configuration)} {sort : ForeignFailure}
      {message : String} : sort ≠ .key → read path = .error (.foreign sort message) →
      Refuses path (.reader read) (.dumpNotLoaded path message)

theorem DumpReader.refuses_iff {reader : DumpReader} {path : String} {e : AuditError} :
    reader.Refuses path e ↔ reader.load path = .error (.audit e) := by
  constructor
  · rintro (_ | h | ⟨hsort, h⟩)
    · rfl
    · rw [load, h]
    · rw [load, h]
      rename_i sort message
      cases sort <;> first | rfl | exact absurd rfl hsort
  · intro h
    rw [load.eq_def] at h
    split at h
    · cases h
      exact .missing
    · split at h
      · cases h
      · next hkey hread =>
        cases h
        exact .unreadable hkey hread
      · exact .refused h

/-! ### Reports under valid options -/

namespace Runner

variable {options : Value} {settings : Settings}

/-- Whatever a combined run reports, a checker has produced or it complains about a checker. -/
theorem exists_checker_of_mem_reported {r : Runner} {checkers : Option (List String)}
    {hidden : Diagnostic → Bool} {cs : List Configuration} {d : Diagnostic}
    (h : d ∈ r.reported checkers hidden cs) :
    ∃ c ∈ cs, ∃ checker ∈ (r.select checkers).1,
      d ∈ produced r.options c checker ∨ d ∈ complaint r.options c checker := by
  rw [reported_eq] at h
  obtain ⟨⟨c, i⟩, hc, h⟩ := List.mem_flatMap.mp h
  obtain ⟨checker, hchecker, h⟩ := List.mem_flatMap.mp h
  rw [contribution, List.mem_append, List.mem_filter] at h
  exact ⟨c, List.fst_mem_of_mem_zipIdx hc, checker, hchecker, h.imp_left And.left⟩

/-- The growth checker does not give up under valid options. -/
theorem complaint_growthChecker (hsettings : Settings.ofOptions options = .ok settings)
    (c : Configuration) : complaint options c growthChecker = [] := by
  simp only [complaint, growthChecker, GrowthChecker.inspect, hsettings]

theorem id_of_mem_produced_growthChecker {c : Configuration} {d : Diagnostic}
    (h : d ∈ produced options c growthChecker) : d.id = findingId := by
  cases hsettings : Settings.ofOptions options with
  | error failure =>
    simp only [produced, growthChecker, GrowthChecker.inspect, hsettings] at h
    cases h
  | ok settings =>
    simp only [produced, growthChecker, GrowthChecker.inspect, hsettings] at h
    obtain ⟨site, -, hsite⟩ := List.mem_filterMap.mp h
    rw [ContainerSite.diagnose?_eq] at hsite
    split at hsite
    · cases hsite
      rfl
    · cases hsite

/-- **Under valid options the standard checkers report nothing but findings.** -/
theorem id_of_mem_reported (hsettings : Settings.ofOptions options = .ok settings)
    {hidden : Diagnostic → Bool} {cs : List Configuration} {d : Diagnostic}
    (h : d ∈ ({ options } : Runner).reported none hidden cs) : d.id = findingId := by
  obtain ⟨c, -, checker, hchecker, h⟩ := exists_checker_of_mem_reported h
  obtain rfl : checker = growthChecker := List.mem_singleton.mp hchecker
  rw [complaint_growthChecker hsettings, or_iff_left List.not_mem_nil] at h
  exact id_of_mem_produced_growthChecker h

end Runner

/-- A report of nothing but findings counts none iff it is empty. -/
theorem Report.findingCount_eq_zero_iff {r : Report} (h : ∀ d ∈ r.diagnostics, d.id = findingId) :
    r.findingCount = 0 ↔ r.diagnostics = [] := by
  rw [findingCount, List.countP_eq_length.mpr fun d hd => beq_iff_eq.mpr (h d hd),
    List.length_eq_zero_iff]

namespace Program

/-! ### The whole program -/

/-- Lines are something, however short they are. -/
theorem join_lines_eq_empty_iff (ds : List Diagnostic) (line : Diagnostic → String) :
    String.join (ds.map (line · ++ "\n")) = "" ↔ ds = [] := by
  cases ds with
  | nil => exact iff_of_true rfl rfl
  | cons d ds =>
    refine iff_of_false (fun h => ?_) (List.cons_ne_nil d ds)
    have hlist := congrArg String.toList h
    rw [String.toList_join, List.map_cons, List.flatMap_cons, String.toList_append] at hlist
    simp at hlist

/-- The output is empty iff nothing was reported, unless it is a summary. -/
theorem render_eq_empty_iff {format : OutputFormat} {r : Report} {output : String}
    (hformat : format ≠ .summary) (h : render format r = .ok output) :
    output = "" ↔ r.diagnostics = [] := by
  cases format with
  | json =>
    cases h
    exact join_lines_eq_empty_iff _ _
  | gcc =>
    cases h
    exact join_lines_eq_empty_iff _ _
  | summary => exact absurd rfl hformat

/-- The text of a report is made of its diagnostics, unless it is a summary. -/
theorem render_congr {format : OutputFormat} {r r' : Report} (hformat : format ≠ .summary)
    (h : r.diagnostics = r'.diagnostics) : render format r = render format r' := by
  cases format with
  | json => rw [render, render, h]
  | gcc => rw [render, render, h]
  | summary => exact absurd rfl hformat

/-- The exit code, the output and their cause agree. -/
structure Agrees (reader : DumpReader) (path : String) (format : OutputFormat)
    (suppress : List String) (options : Value) (clock : Clock) (result : ProgramResult) :
    Prop where
  /-- The options are invalid, or the dump cannot be loaded. -/
  unusable : result.exit.toNat = 2 ↔
    (∃ e : AuditError, e.id = "badConfiguration" ∧
      Settings.ofOptions options = .error (.audit e)) ∨ ∃ e, reader.Refuses path e
  silent : result.exit.toNat = 2 → result.output = ""
  /-- Otherwise the output is that of diagnostics, all of which are findings. -/
  usable : result.exit.toNat ≠ 2 → ∃ cs ds, reader.load path = .ok cs ∧
    diagnosticsOf cs suppress options clock = .ok ds ∧ (∀ d ∈ ds, d.id = findingId) ∧
    render format { diagnostics := ds } = .ok result.output
  findings : result.exit.toNat ≠ 2 → (result.exit.toNat = 1 ↔ result.output ≠ "")
  clean : result.exit.toNat ≠ 2 → (result.exit.toNat = 0 ↔ result.output = "")

section

variable {reader : DumpReader} {path : String} {format : OutputFormat} {suppress : List String}
  {options : Value} {clock : Clock}

theorem agrees_refuse
    (h : (∃ e : AuditError, e.id = "badConfiguration" ∧
      Settings.ofOptions options = .error (.audit e)) ∨ ∃ e, reader.Refuses path e)
    (e : AuditError) (loaded : List String) :
    Agrees reader path format suppress options clock (refuse e loaded) where
  unusable := iff_of_true rfl h
  silent _ := rfl
  usable hexit := absurd rfl hexit
  findings hexit := absurd rfl hexit
  clean hexit := absurd rfl hexit

/-- What the result of a run over loaded configurations consists of. -/
theorem exists_run_of_report {cs : List Configuration} {result : ProgramResult}
    (h : report cs format suppress options clock = .ok result) :
    ∃ run, (Runner.runAll { options } cs none (session suppress clock)).1 = .ok run ∧
      render format run.report = .ok result.output ∧
      result.exit = if run.report.findingCount = 0 then .clean else .findings := by
  obtain ⟨run, hrun, h⟩ := Outcome.of_bind_eq_ok h
  obtain ⟨output, hrender, h⟩ := Outcome.of_bind_eq_ok h
  cases h
  exact ⟨run, hrun, hrender, rfl⟩

/-- The result agrees where the options are valid and the dump can be loaded. -/
theorem agrees_of_report (hformat : format ≠ .summary) {settings : Settings}
    {cs : List Configuration} {result : ProgramResult}
    (hsettings : Settings.ofOptions options = .ok settings) (hload : reader.load path = .ok cs)
    (h : report cs format suppress options clock = .ok result) (loaded : List String) :
    Agrees reader path format suppress options clock { result with loaded } := by
  obtain ⟨run, hrun, hrender, hexit⟩ := exists_run_of_report h
  have hids : ∀ d ∈ run.report.diagnostics, d.id = findingId := fun d hd =>
    Runner.id_of_mem_reported hsettings (Runner.reported_of_runAll hrun ▸ hd)
  -- nothing is found iff nothing is written
  have hnothing : run.report.findingCount = 0 ↔ result.output = "" :=
    (Report.findingCount_eq_zero_iff hids).trans (render_eq_empty_iff hformat hrender).symm
  have hcode : result.exit.toNat = if result.output = "" then 0 else 1 := by
    rw [hexit]
    by_cases houtput : result.output = ""
    · rw [if_pos houtput, if_pos (hnothing.mpr houtput), ExitCode.toNat]
    · rw [if_neg houtput, if_neg (mt hnothing.mp houtput), ExitCode.toNat]
  have hne : result.exit.toNat ≠ 2 := by
    rw [hcode]
    split <;> decide
  refine ⟨iff_of_false hne ?_, fun htwo => absurd htwo hne, fun _ => ?_, fun _ => ?_, fun _ => ?_⟩
  · rintro (⟨e, -, he⟩ | ⟨e, he⟩)
    · rw [hsettings] at he
      cases he
    · rw [DumpReader.refuses_iff, hload] at he
      cases he
  · refine ⟨cs, run.report.diagnostics, hload, ?_, hids, ?_⟩
    · rw [diagnosticsOf, hrun]
      rfl
    · rw [← hrender]
      exact render_congr hformat rfl
  · show result.exit.toNat = 1 ↔ _
    rw [hcode]
    split <;> simp [*]
  · show result.exit.toNat = 0 ↔ _
    rw [hcode]
    split <;> simp [*]

/-- **Exit code, output and cause agree** in every run of the program that comes to an end and does
not write a summary. -/
theorem audit_agrees (hformat : format ≠ .summary) {result : ProgramResult}
    (h : audit reader path format suppress options clock = .ok result) :
    Agrees reader path format suppress options clock result := by
  rw [audit] at h
  split at h
  · next e hsettings =>
    cases h
    exact agrees_refuse (.inl ⟨e, Settings.id_of_ofOptions_eq_error hsettings, hsettings⟩) e _
  · cases h
  · next settings hsettings =>
    split at h
    · next e hload =>
      cases h
      exact agrees_refuse (.inr ⟨e, DumpReader.refuses_iff.mpr hload⟩) e _
    · cases h
    · next cs hload =>
      obtain ⟨result, hreport, h⟩ := Outcome.of_bind_eq_ok h
      cases h
      exact agrees_of_report hformat hsettings hload hreport _

end

/-- The three codes: over `throwingVector` a finding is written unless it is suppressed, and without
a reader nothing is. -/
theorem audit_agrees_sample :
    OutputFormat.gcc ≠ .summary ∧
      ∃ found hidden missing,
        audit throwingDump "a.dump" .gcc ["style"] .null {} = .ok found ∧
        audit throwingDump "a.dump" .gcc ["vectorPessimization"] .null {} = .ok hidden ∧
        audit .missing "a.dump" .gcc [] .null {} = .ok missing ∧
        Agrees throwingDump "a.dump" .gcc ["style"] .null {} found ∧
        Agrees throwingDump "a.dump" .gcc ["vectorPessimization"] .null {} hidden ∧
        Agrees .missing "a.dump" .gcc [] .null {} missing ∧
        found.exit.toNat = 1 ∧ hidden.exit.toNat = 0 ∧ missing.exit.toNat = 2 := by
  refine ⟨by decide, _, _, _, rfl, rfl, rfl, audit_agrees (by decide) rfl,
    audit_agrees (by decide) rfl, audit_agrees (by decide) rfl, ?_, ?_, ?_⟩
  all_goals decide +kernel

end Program

end GrowthAudit
