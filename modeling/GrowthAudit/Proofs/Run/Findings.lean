import GrowthAudit.Proofs.Dump.FirstUses
import GrowthAudit.Runner

/-!
# What a run reports

A run of the growth checker over a configuration finds uses of containers, judges their element
types, explains and renders what it found, and drops what is suppressed.  This file follows a site
through all of this.

* `Runner.passes_of_run`: the diagnostics of a run are those of its checkers, one after the other.
* `Runner.run_growthChecker`: such a run comes to an end, with a clock of doubles.
* `ContainerSite.Reported`: the element type degrades, and nothing suppresses a finding there.
* `Runner.diagnostics_of_run`: the growth checker has one diagnostic for each reported site.
* `Accounts`: what is to be expected of the diagnostics of a run.  `accounts_iff_noneLost` says that
  every run lives up to it iff no name of a container is lost.
-/

namespace GrowthAudit

/-! ### Clocks -/

/-- The readings of a clock are doubles, if there are any. -/
def Clock.ReadsDoubles (clock : Clock) : Prop := ∀ t ∈ clock.readings, ∃ x, t = .float x

/-- A clock that has readings goes on to have some. -/
theorem Clock.ReadsDoubles.read {clock : Clock} (h : clock.ReadsDoubles)
    (hne : clock.readings ≠ []) :
    (∃ x, clock.read.1 = .float x) ∧ clock.read.2.readings ≠ [] ∧ clock.read.2.ReadsDoubles := by
  obtain ⟨readings⟩ := clock
  cases readings with
  | nil => exact absurd rfl hne
  | cons t rest =>
    obtain ⟨ht, hrest⟩ := List.forall_mem_cons.mp h
    cases rest with
    | nil => exact ⟨ht, hne, h⟩
    | cons u rest => exact ⟨ht, List.cons_ne_nil u rest, hrest⟩

/-- The time between two readings that follow each other can be told. -/
theorem Clock.ReadsDoubles.exists_elapsed {clock : Clock} (h : clock.ReadsDoubles) :
    (∃ x, Runner.elapsed? clock.read.1 clock.read.2.read.1 = some (.float x)) ∧
      clock.read.2.read.2.ReadsDoubles := by
  by_cases hne : clock.readings = []
  · -- a clock without readings stands still
    obtain ⟨_⟩ := clock
    obtain rfl := hne
    exact ⟨⟨_, rfl⟩, h⟩
  · obtain ⟨⟨x, hx⟩, hne, h⟩ := h.read hne
    obtain ⟨⟨y, hy⟩, -, h⟩ := h.read hne
    rw [hx, hy]
    exact ⟨⟨_, rfl⟩, h⟩

namespace Runner

/-! ### Runs of checkers -/

/-- What a checker contributes to a run. -/
def Pass (options : Value) (c : Configuration) (suppressions : Suppressions) (checker : Checker)
    (ds : List Diagnostic) : Prop :=
  ∃ log, shown suppressions checker.name (checker.inspect options c).result = .ok (ds, log)

/-- The time between two readings is a double, also if both are integers. -/
theorem exists_float_of_elapsed? {start finish elapsed : Number}
    (h : elapsed? start finish = some elapsed) : ∃ milliseconds, elapsed = .float milliseconds := by
  simp only [elapsed?, Option.bind_eq_bind, Option.bind_eq_some_iff] at h
  obtain ⟨_, -, _, -, h⟩ := h
  cases h
  exact ⟨_, rfl⟩

/-- A run that comes to an end adds what a checker shows to the report and goes on to the others. -/
theorem exists_pass_of_runCheckers_cons {options : Value} {c : Configuration}
    {suppressions : Suppressions} {checker : Checker} {checkers : List Checker} {stats : Stats}
    {before after : RunResult} {clock : Clock}
    (h : (runCheckers options c suppressions (checker :: checkers) stats before clock).1 =
      .ok after) :
    ∃ ds log milliseconds clock',
      shown suppressions checker.name (checker.inspect options c).result = .ok (ds, log) ∧
        (runCheckers options c suppressions checkers
          (Stats.update stats (checker.inspect options c).stats)
          ⟨before.report.addPass checker.name ds (.float milliseconds)
            (Stats.update stats (checker.inspect options c).stats), before.log ++ log⟩
          clock').1 = .ok after := by
  rw [runCheckers] at h
  cases hshown : shown suppressions checker.name (checker.inspect options c).result with
  | error failure =>
    simp only [hshown] at h
    cases h
  | ok pass =>
    obtain ⟨ds, log⟩ := pass
    simp only [hshown] at h
    split at h
    · cases h
    · next helapsed =>
      obtain ⟨milliseconds, rfl⟩ := exists_float_of_elapsed? helapsed
      exact ⟨ds, log, milliseconds, _, rfl, h⟩

/-- The diagnostics of a run are those of the checkers, one after the other. -/
theorem passes_of_runCheckers {options : Value} {c : Configuration} {suppressions : Suppressions}
    {checkers : List Checker} {stats : Stats} {before after : RunResult} {clock : Clock}
    (h : (runCheckers options c suppressions checkers stats before clock).1 = .ok after) :
    ∃ passes, List.Forall₂ (Pass options c suppressions) checkers passes ∧
      after.report.diagnostics = before.report.diagnostics ++ passes.flatten := by
  induction checkers generalizing stats before clock with
  | nil =>
    cases h
    exact ⟨[], .nil, (List.append_nil _).symm⟩
  | cons checker checkers ih =>
    obtain ⟨ds, log, _, _, hshown, hrest⟩ := exists_pass_of_runCheckers_cons h
    obtain ⟨passes, hpasses, hall⟩ := ih hrest
    refine ⟨ds :: passes, .cons ⟨log, hshown⟩ hpasses, ?_⟩
    rw [hall, Report.addPass, List.flatten_cons, List.append_assoc]

section

variable {r : Runner} {c : Configuration} {checkers : Option (List String)} {s : Session}

/-- Once the comments are loaded, the selected checkers run one after the other. -/
theorem run_of_load (h : (s.suppressions.load c.suppressions).2 = none) :
    r.run c checkers s =
      ((runCheckers r.options c (s.suppressions.load c.suppressions).1 (r.select checkers).1 []
          { log := (r.select checkers).2 } s.clock).1,
        ⟨(s.suppressions.load c.suppressions).1,
          (runCheckers r.options c (s.suppressions.load c.suppressions).1 (r.select checkers).1 []
            { log := (r.select checkers).2 } s.clock).2⟩) := by
  rw [run]
  split
  · next hload =>
    rw [hload] at h
    cases h
  · next hload => rw [hload]

theorem load_of_run {result : RunResult} (h : (r.run c checkers s).1 = .ok result) :
    (s.suppressions.load c.suppressions).2 = none := by
  rw [run] at h
  split at h
  · cases h
  · next hload => rw [hload]

/-- **The diagnostics of a run** are those of the selected checkers, one after the other, under the
suppressions that the configuration has added. -/
theorem passes_of_run {result : RunResult} (h : (r.run c checkers s).1 = .ok result) :
    ∃ passes, List.Forall₂ (Pass r.options c (s.suppressions.load c.suppressions).1)
        (r.select checkers).1 passes ∧
      result.report.diagnostics = passes.flatten := by
  rw [run_of_load (load_of_run h)] at h
  exact passes_of_runCheckers h

end

/-- A run of the growth checker over a configuration whose comments can be loaded comes to an end
under valid options: it records the time it took and the number of its sites. -/
theorem run_growthChecker {r : Runner} {c : Configuration} {checkers : Option (List String)}
    {s : Session} {settings : Settings} (hselect : (r.select checkers).1 = [growthChecker])
    (hsettings : Settings.ofOptions r.options = .ok settings)
    (hload : (s.suppressions.load c.suppressions).2 = none) (hclock : s.clock.ReadsDoubles) :
    (∃ ds log elapsed n, (r.run c checkers s).1 =
        .ok ⟨({} : Report).addPass growthChecker.name ds (.float elapsed)
          [(GrowthChecker.siteCountKey, .int n)], log⟩) ∧
      (r.run c checkers s).2.clock.ReadsDoubles := by
  obtain ⟨⟨elapsed, helapsed⟩, hafter⟩ := hclock.exists_elapsed
  have hinspect : growthChecker.inspect r.options c = GrowthChecker.inspect r.options c := rfl
  rw [run_of_load hload, hselect]
  simp only [runCheckers, hinspect, GrowthChecker.inspect, hsettings, shown, helapsed]
  exact ⟨⟨_, _, elapsed, _, rfl⟩, hafter⟩

/-- Where the clock stands still, such a run comes to an end. -/
theorem exists_run {r : Runner} {c : Configuration} {checkers : Option (List String)} {s : Session}
    {settings : Settings} (hselect : (r.select checkers).1 = [growthChecker])
    (hsettings : Settings.ofOptions r.options = .ok settings)
    (hload : (s.suppressions.load c.suppressions).2 = none) (hclock : s.clock = {}) :
    ∃ result, (r.run c checkers s).1 = .ok result := by
  have hstill : s.clock.ReadsDoubles := by
    intro t ht
    rw [hclock] at ht
    exact absurd ht List.not_mem_nil
  obtain ⟨⟨_, _, _, _, hrun⟩, -⟩ := run_growthChecker hselect hsettings hload hstill
  exact ⟨_, hrun⟩

end Runner

/-! ### Sites -/

/-- Whether a diagnostic is suppressed depends on its id and its location. -/
theorem Suppressions.covers_congr (suppressions : Suppressions) {d d' : Diagnostic}
    (hid : d.id = d'.id) (hlocation : d.location = d'.location) :
    suppressions.covers d = suppressions.covers d' := by
  rw [covers, covers, hid, hlocation]

namespace ContainerSite

variable {suppressions : Suppressions} {maxDepth : Int}

/-- The diagnostic of a site where elements are copied. -/
def diagnostic (site : ContainerSite) (maxDepth : Int) : Diagnostic :=
  Finding.diagnostic ⟨site.container, site.element, site.location, site.element.explain 1 maxDepth⟩
    GrowthChecker.name

/-- The element type degrades, and no finding at the location is suppressed. -/
def Reported (suppressions : Suppressions) (site : ContainerSite) : Prop :=
  site.element.degrades = true ∧
    ∀ d : Diagnostic, d.id = findingId → d.location = site.location → suppressions.covers d = false

theorem diagnose?_eq (site : ContainerSite) :
    GrowthChecker.diagnose? maxDepth site =
      if site.element.degrades then some (site.diagnostic maxDepth) else none := by
  rw [GrowthChecker.diagnose?, CppType.audit?]
  cases site.element.degrades <;> rfl

/-- The diagnostic of the site is shown. -/
def shows (suppressions : Suppressions) (maxDepth : Int) (site : ContainerSite) : Bool :=
  site.element.degrades && !suppressions.covers (site.diagnostic maxDepth)

theorem shows_iff (site : ContainerSite) :
    site.shows suppressions maxDepth = true ↔ site.Reported suppressions := by
  rw [shows, Bool.and_eq_true, Bool.not_eq_true']
  refine and_congr_right fun _ => ⟨fun h d hid hlocation => ?_, fun h => h _ rfl rfl⟩
  rw [← h]
  exact suppressions.covers_congr hid hlocation

/-- What the growth checker shows is one diagnostic for each site that is shown. -/
theorem filter_filterMap_diagnose? (sites : List ContainerSite) :
    suppressions.filter (sites.filterMap (GrowthChecker.diagnose? maxDepth)) =
      (sites.filter (shows suppressions maxDepth)).map (·.diagnostic maxDepth) := by
  induction sites with
  | nil => rfl
  | cons site sites ih =>
    rw [Suppressions.filter] at ih ⊢
    rw [List.filterMap_cons, diagnose?_eq, List.filter_cons, shows]
    by_cases hdegrades : site.element.degrades = true
    · simp only [hdegrades, if_true, List.filter_cons, Bool.true_and]
      split
      · rw [ih, List.map_cons]
      · exact ih
    · simp only [hdegrades, Bool.false_and]
      exact ih

end ContainerSite

namespace Runner

/-- **The diagnostics of a run of the growth checker** are those of the sites that are shown, in
their order. -/
theorem diagnostics_of_run {r : Runner} {c : Configuration} {checkers : Option (List String)}
    {s : Session} {settings : Settings} {result : RunResult}
    (hselect : (r.select checkers).1 = [growthChecker])
    (hsettings : Settings.ofOptions r.options = .ok settings)
    (hrun : (r.run c checkers s).1 = .ok result) :
    result.report.diagnostics =
      ((c.containerSites settings.containers []).1.filter
          (ContainerSite.shows (s.suppressions.load c.suppressions).1 settings.maxDepth)).map
        (·.diagnostic settings.maxDepth) := by
  obtain ⟨passes, hpasses, hall⟩ := passes_of_run hrun
  rw [hselect] at hpasses
  obtain ⟨ds, _, ⟨log, hpass⟩, hnil, rfl⟩ := List.forall₂_cons_left_iff.mp hpasses
  obtain rfl := List.forall₂_nil_left_iff.mp hnil
  simp only [growthChecker, GrowthChecker.inspect, hsettings, shown] at hpass
  cases hpass
  rw [hall, List.flatten_singleton, ContainerSite.filter_filterMap_diagnose?]

end Runner

/-! ### What to expect -/

/-- What is to be expected of the diagnostics that a run reports for a configuration. -/
structure Accounts (c : Configuration) (settings : Settings) (suppressions : Suppressions)
    (ds : List Diagnostic) : Prop where
  /-- The sites are those of the first tokens at their locations where a configured name stands. -/
  met : c.SitesMet (settings.containers.map Text.unrooted)
    (c.containerSites settings.containers []).1
  nodup : (ds.map (·.location)).Nodup
  ordered : (ds.map (·.location)).Sublist
    ((c.containerSites settings.containers []).1.map (·.location))
  reported : ∀ l, l ∈ ds.map (·.location) ↔
    ∃ site ∈ (c.containerSites settings.containers []).1,
      site.location = l ∧ site.Reported suppressions
  rendered : ∀ d ∈ ds, ∃ site ∈ (c.containerSites settings.containers []).1,
    d = site.diagnostic settings.maxDepth

open ContainerUse

/-- The sites of a configuration are at different locations. -/
theorem nodup_location_containerSites (c : Configuration) (containers : List String) :
    ((c.containerSites containers []).1.map (·.location)).Nodup := by
  have hlocations := c.locationsOf_eq containers []
  rw [Configuration.locationsOf] at hlocations
  rw [hlocations]
  exact nodup_location_distinct [] _

theorem accounts_of_noneLost {r : Runner} {c : Configuration} {checkers : Option (List String)}
    {s : Session} {settings : Settings} {result : RunResult}
    (hnames : NoneLost (settings.containers.map Text.unrooted))
    (hselect : (r.select checkers).1 = [growthChecker])
    (hsettings : Settings.ofOptions r.options = .ok settings)
    (hrun : (r.run c checkers s).1 = .ok result) :
    Accounts c settings (s.suppressions.load c.suppressions).1 result.report.diagnostics := by
  have hds := Runner.diagnostics_of_run hselect hsettings hrun
  -- a diagnostic is located where its site is
  have hlocations : result.report.diagnostics.map (·.location) =
      ((c.containerSites settings.containers []).1.filter
        (ContainerSite.shows (s.suppressions.load c.suppressions).1 settings.maxDepth)).map
          (·.location) := by
    rw [hds, List.map_map]
    rfl
  have hordered := (List.filter_sublist (p := ContainerSite.shows
    (s.suppressions.load c.suppressions).1 settings.maxDepth)
    (l := (c.containerSites settings.containers []).1)).map (·.location)
  rw [← hlocations] at hordered
  exact {
    met := Configuration.sitesMet_containerSites hnames c
    nodup := (nodup_location_containerSites c settings.containers).sublist hordered
    ordered := hordered
    reported := fun l => by
      rw [hlocations, List.mem_map]
      simp only [List.mem_filter, ContainerSite.shows_iff]
      exact exists_congr fun site => by tauto
    rendered := fun d hd => by
      rw [hds] at hd
      obtain ⟨site, hsite, rfl⟩ := List.mem_map.mp hd
      exact ⟨site, (List.mem_filter.mp hsite).1, rfl⟩ }

/-- **Every run of the growth checker lives up to what is expected of it iff no name is lost.** -/
theorem accounts_iff_noneLost {options : Value} {settings : Settings}
    (hsettings : Settings.ofOptions options = .ok settings) :
    (∀ (r : Runner) (c : Configuration) (checkers : Option (List String)) (s : Session)
        (result : RunResult), r.options = options → (r.select checkers).1 = [growthChecker] →
        (r.run c checkers s).1 = .ok result →
        Accounts c settings (s.suppressions.load c.suppressions).1 result.report.diagnostics) ↔
      NoneLost (settings.containers.map Text.unrooted) := by
  constructor
  · intro h
    refine Configuration.noneLost_of_sitesMet fun n _ => ?_
    have hselect : (({ options } : Runner).select none).1 = [growthChecker] := rfl
    obtain ⟨result, hrun⟩ := Runner.exists_run (c := { tokens := spelled n }) (s := {}) hselect
      hsettings rfl rfl
    exact (h _ _ _ _ result rfl hselect hrun).met
  · intro hnames r c checkers s result hoptions hselect hrun
    rw [← hoptions] at hsettings
    exact accounts_of_noneLost hnames hselect hsettings hrun

/-- The options that configure containers. -/
def containerOptions (containers : List String) : Value :=
  .table [("containers", .list (containers.map .str))]

/-- `struct T { T(T&&); }; std::vector<T> v;`, with the scope of `T`. -/
def throwingVector : Configuration where
  tokens := [
    { text := "struct" }, { text := "T" }, { text := "\x7b" }, { text := "T" }, { text := "(" },
    { text := "T" }, { text := "&&" }, { text := ")" }, { text := ";" }, { text := "\x7d" },
    { text := ";" },
    { text := "std" }, { text := "::" }, { text := "vector", location := ⟨"a.cpp", 2, 6⟩ },
    { text := "<" }, { text := "T", scope := some 0 }, { text := ">" }, { text := "v" },
    { text := ";" }]
  scopes := [
    { kind := .record, className := "T", id := some "1", bodyStart := some 2
      functions := [{ kind := .moveConstructor, nameToken := some 3 }] }]

/-- A run over `throwingVector` comes to an end, with the diagnostics of its sites. -/
theorem exists_run_throwingVector {containers : List String} {settings : Settings}
    (hsettings : Settings.ofOptions (containerOptions containers) = .ok settings) :
    ∃ result,
      (({ options := containerOptions containers } : Runner).run throwingVector none {}).1 =
          .ok result ∧
        result.report.diagnostics =
          ((throwingVector.containerSites settings.containers []).1.filter
            (ContainerSite.shows {} settings.maxDepth)).map (·.diagnostic settings.maxDepth) := by
  have hselect : (({ options := containerOptions containers } : Runner).select none).1 =
      [growthChecker] := rfl
  obtain ⟨result, hrun⟩ := Runner.exists_run (c := throwingVector) (s := {}) hselect hsettings
    rfl rfl
  exact ⟨result, hrun, Runner.diagnostics_of_run hselect hsettings hrun⟩

theorem accounts_iff_noneLost_sample :
    Settings.ofOptions (containerOptions ["std::vector", "std::deque"]) =
        .ok ⟨CppType.defaultDepth, ["std::vector", "std::deque"]⟩ ∧
      ∃ result,
        (({ options := containerOptions ["std::vector", "std::deque"] } : Runner).run
          throwingVector none {}).1 = .ok result ∧
        Accounts throwingVector ⟨CppType.defaultDepth, ["std::vector", "std::deque"]⟩ {}
          result.report.diagnostics ∧
        result.report.diagnostics.map (·.location) = [⟨"a.cpp", 2, 6⟩] := by
  have hsettings : Settings.ofOptions (containerOptions ["std::vector", "std::deque"]) =
      .ok ⟨CppType.defaultDepth, ["std::vector", "std::deque"]⟩ := rfl
  obtain ⟨result, hrun, hds⟩ := exists_run_throwingVector hsettings
  have hnames : NoneLost (["std::vector", "std::deque"].map Text.unrooted) :=
    noneLost_of_last (by decide +kernel)
  refine ⟨hsettings, result, hrun,
    (accounts_iff_noneLost hsettings).mpr hnames _ _ _ _ _ rfl rfl hrun, ?_⟩
  rw [hds, List.map_map]
  decide +kernel

/-- Where `my::vector` is configured as well, the finding at the `std::vector` is lost. -/
theorem lost_finding_sample :
    Settings.ofOptions (containerOptions ["std::vector", "my::vector"]) =
        .ok ⟨CppType.defaultDepth, ["std::vector", "my::vector"]⟩ ∧
      (∃ result,
        (({ options := containerOptions ["std::vector", "my::vector"] } : Runner).run
          throwingVector none {}).1 = .ok result ∧
        result.report.diagnostics = [] ∧
        ¬ Accounts throwingVector ⟨CppType.defaultDepth, ["std::vector", "my::vector"]⟩ {}
          result.report.diagnostics) ∧
      ∃ result,
        (({ options := containerOptions ["std::vector"] } : Runner).run throwingVector none {}).1 =
          .ok result ∧
        result.report.diagnostics.map (·.location) = [⟨"a.cpp", 2, 6⟩] := by
  have hsettings : Settings.ofOptions (containerOptions ["std::vector", "my::vector"]) =
      .ok ⟨CppType.defaultDepth, ["std::vector", "my::vector"]⟩ := rfl
  have hsites : (throwingVector.containerSites ["std::vector", "my::vector"] []).1 = [] := by
    rw [← List.isEmpty_iff]
    decide +kernel
  refine ⟨hsettings, ?_, ?_⟩
  · obtain ⟨result, hrun, hds⟩ := exists_run_throwingVector hsettings
    refine ⟨result, hrun, ?_, fun haccounts => ?_⟩
    · rw [hds, hsites]
      rfl
    · -- the first use of the configured names at its location
      have huse : at? throwingVector.tokens ["std::vector"] 13 =
          some ⟨"std::vector", [{ text := "T", scope := some 0 }], ⟨"a.cpp", 2, 6⟩⟩ := by
        decide +kernel
      have hfirst : FirstUse throwingVector.tokens ["std::vector", "my::vector"] 13 := by
        have hstands := (at?_eq_some_iff.mp huse).2.1
        have hothers : ∀ j < 13, Token.locationOf throwingVector.tokens[j]? ≠
            Token.locationOf throwingVector.tokens[13]? := by decide +kernel
        exact ⟨⟨_, List.mem_cons_self, _, hstands⟩, fun j hj _ => hothers j hj⟩
      have hmem := haccounts.met.location_mem hfirst
      rw [hsites] at hmem
      exact List.not_mem_nil hmem
  · have halone : Settings.ofOptions (containerOptions ["std::vector"]) =
        .ok ⟨CppType.defaultDepth, ["std::vector"]⟩ := rfl
    obtain ⟨result, hrun, hds⟩ := exists_run_throwingVector halone
    refine ⟨result, hrun, ?_⟩
    rw [hds, List.map_map]
    decide +kernel

end GrowthAudit
