import GrowthAudit.Proofs.CppType.Explanation
import GrowthAudit.Proofs.Run.Findings
import GrowthAudit.Proofs.Run.Lockstep

/-!
# Two runs that explain to different depths

How deep explanations may go decides how much is explained, and nothing else.  This file compares a
run with one that may go deeper, for a configuration and a state of the suppressions.

* `Diagnostic.Deepens`: the second of two diagnostics says the same as the first and explains it at
  least as far.
* `SameButDepth`: options that give two depths and agree in everything else.
* `Runner.run_deepens`: runs of the growth checker whose options differ in nothing but the depth
  report diagnostics that deepen one by one.
-/

namespace GrowthAudit

/-! ### Diagnostics with longer explanations -/

/-- The second evidence is about the same use and has at least the steps of the first. -/
structure Evidence.Deepens (e e' : Evidence) : Prop where
  container : e.container = e'.container
  elementType : e.elementType = e'.elementType
  chain : e.chain <+: e'.chain

/-- The second diagnostic says the same as the first and has at least its notes and evidence. -/
structure Diagnostic.Deepens (d d' : Diagnostic) : Prop where
  id : d.id = d'.id
  message : d.message = d'.message
  severity : d.severity = d'.severity
  location : d.location = d'.location
  confidence : d.confidence = d'.confidence
  checker : d.checker = d'.checker
  notes : d.notes <+: d'.notes
  evidence : Option.Rel Evidence.Deepens d.evidence d'.evidence

theorem Diagnostic.Deepens.refl (d : Diagnostic) : d.Deepens d where
  id := rfl
  message := rfl
  severity := rfl
  location := rfl
  confidence := rfl
  checker := rfl
  notes := List.prefix_rfl
  evidence := by
    cases d.evidence with
    | none => exact .none
    | some e => exact .some ⟨rfl, rfl, List.prefix_rfl⟩

/-- The notes of an explanation that goes further start with those of the shorter one.  Where there
is no explanation the single note is the same. -/
theorem Finding.notes_prefix {f f' : Finding} (helement : f.element = f'.element)
    (hchain : f.chain <+: f'.chain) (hempty : f.chain.isEmpty = f'.chain.isEmpty) :
    f.notes <+: f'.notes := by
  rw [notes, notes, ← hempty, ← helement]
  split
  · exact List.prefix_rfl
  · obtain ⟨rest, hrest⟩ := hchain
    rw [← hrest, List.flatMap_append]
    exact List.prefix_append _ _

namespace ContainerSite

variable {m m' : Int} (h : m ≤ m') (site : ContainerSite)

include h

theorem diagnostic_deepens : (site.diagnostic m).Deepens (site.diagnostic m') := by
  have hchain := CppType.explain_prefix_of_le h site.element
  have hempty := CppType.isEmpty_explain m m' site.element
  exact {
    id := rfl
    message := rfl
    severity := rfl
    location := rfl
    confidence := by
      show (if _ then Confidence.medium else .high) = if _ then Confidence.medium else .high
      rw [hempty]
    checker := rfl
    notes := Finding.notes_prefix rfl hchain hempty
    evidence := .some ⟨rfl, rfl, hchain.map _⟩ }

end ContainerSite

/-! ### Options that differ in the depth -/

/-- The options give the depths `m` and `m'` and are the same in everything else. -/
structure SameButDepth (options options' : Value) (m m' : Int) : Prop where
  depth : options.get? "max_depth" = some (.int m)
  depth' : options'.get? "max_depth" = some (.int m')
  others : ∀ key, key ≠ "max_depth" → options.get? key = options'.get? key

namespace Settings

/-- The containers that options configure. -/
def containersOf (options : Value) : Except Failure (List String) :=
  (options.get? "containers").elim (.ok [defaultContainer])
    fun v => containerItems v >>= containerNames

theorem ofOptions_of_depth {options : Value} {m : Int} (hm : 1 ≤ m)
    (hdepth : options.get? "max_depth" = some (.int m)) :
    ofOptions options = (containersOf options).map (⟨m, ·⟩) := by
  have htruthy : options.isTruthy = true := by
    cases options with
    | table entries =>
      cases entries with
      | nil => cases hdepth
      | cons e entries => rfl
    | _ => cases hdepth
  have hread : depth (.int m) = .ok m := by
    rw [depth, if_neg (by omega)]
  cases options with
  | table entries =>
    simp only [ofOptions, htruthy, hdepth, Option.elim_some, hread]
    rw [containersOf]
    cases (Value.table entries).get? "containers" with
    | none => rfl
    | some v =>
      simp only [Option.elim_some]
      cases containerItems v >>= containerNames <;> rfl
  | _ => cases hdepth

end Settings

/-! ### Runs to different depths -/

namespace Runner

variable {options options' : Value} {c : Configuration} {suppressions : Suppressions}

theorem select_congr (registry : Registry) (options options' : Value)
    (checkers : Option (List String)) :
    ({ registry, options } : Runner).select checkers =
      ({ registry, options := options' } : Runner).select checkers := by
  cases checkers with
  | none => rfl
  | some names =>
    rw [select, select]
    induction names with
    | nil => rfl
    | cons name names ih => rw [byNames, byNames, ih]

/-- Which sites are shown does not depend on the depth, so the diagnostics of the growth checker
deepen one by one. -/
theorem shown_inspect_deepens {m m' : Int} (hoptions : SameButDepth options options' m m')
    (hm : 1 ≤ m) (hle : m ≤ m') :
    Outcome.Alike (InStep Diagnostic.Deepens)
      (shown suppressions growthChecker.name (growthChecker.inspect options c).result)
      (shown suppressions growthChecker.name (growthChecker.inspect options' c).result) := by
  have hcontainers : Settings.containersOf options' = Settings.containersOf options := by
    rw [Settings.containersOf, Settings.containersOf, hoptions.others "containers" (by decide)]
  simp only [growthChecker, GrowthChecker.inspect, Settings.ofOptions_of_depth hm hoptions.depth,
    Settings.ofOptions_of_depth (Int.le_trans hm hle) hoptions.depth', hcontainers]
  cases Settings.containersOf options with
  | error failure =>
    cases failure with
    | audit e =>
      -- the same error is reported by both
      exact .succeeded (.cons (.refl _) .nil)
    | _ => exact .failed
  | ok containers =>
    simp only [Except.map, shown, ContainerSite.filter_filterMap_diagnose?]
    refine .succeeded ?_
    have hshows : ContainerSite.shows suppressions m = ContainerSite.shows suppressions m' := by
      funext site
      rw [Bool.eq_iff_iff, ContainerSite.shows_iff, ContainerSite.shows_iff]
    rw [InStep, hshows, List.forall₂_map_left_iff, List.forall₂_map_right_iff, List.forall₂_same]
    exact fun site _ => site.diagnostic_deepens hle

/-- **The depth decides how much is explained, and nothing else.**  If the options of two runs of
the growth checker differ in nothing but the depth, then both fail alike, or they report the same
diagnostics but for explanations that go further.  The suppressions and the clock end up the
same. -/
theorem run_deepens {m m' : Int} (hoptions : SameButDepth options options' m m') (hm : 1 ≤ m)
    (hle : m ≤ m') (registry : Registry) (c : Configuration) (checkers : Option (List String))
    (s : Session)
    (hselect : ∀ checker ∈ (({ registry, options } : Runner).select checkers).1,
      checker = growthChecker) :
    Outcome.Alike
        (fun r r' : RunResult =>
          List.Forall₂ Diagnostic.Deepens r.report.diagnostics r'.report.diagnostics)
        (({ registry, options } : Runner).run c checkers s).1
        (({ registry, options := options' } : Runner).run c checkers s).1 ∧
      (({ registry, options } : Runner).run c checkers s).2 =
        (({ registry, options := options' } : Runner).run c checkers s).2 := by
  rw [run, run]
  cases hload : s.suppressions.load c.suppressions with
  | mk suppressions failure =>
    cases failure with
    | some failure => exact ⟨.failed, rfl⟩
    | none =>
      simp only [← select_congr registry options options' checkers]
      have hcheckers : ∀ checker ∈ (({ registry, options } : Runner).select checkers).1,
          Outcome.Alike (InStep Diagnostic.Deepens)
            (shown suppressions checker.name (checker.inspect options c).result)
            (shown suppressions checker.name (checker.inspect options' c).result) := by
        intro checker hmem
        obtain rfl := hselect checker hmem
        exact shown_inspect_deepens hoptions hm hle
      generalize ({ registry, options } : Runner).select checkers = selected at hcheckers ⊢
      obtain ⟨halike, hclock⟩ :=
        runCheckers_alike hcheckers [] [] { log := selected.2 } { log := selected.2 } s.clock .nil
      exact ⟨halike, congrArg _ hclock⟩

/-- Options that give a depth and the container to look for. -/
def depthOptions (m : Int) : Value :=
  .table [("max_depth", .int m), ("containers", .list [.str "std::vector"])]

theorem sameButDepth_depthOptions (m m' : Int) :
    SameButDepth (depthOptions m) (depthOptions m') m m' where
  depth := rfl
  depth' := rfl
  others := by
    intro key hkey
    simp only [depthOptions, Value.get?, lookup_cons_eq_ite, if_neg hkey]

/-- `struct T { T(T&&); }; struct W { T t; }; std::vector<W> v;`, with the scopes of `T` and `W`. -/
def wrappedVector : Configuration where
  tokens := [
    { text := "struct" }, { text := "T" }, { text := "\x7b" }, { text := "T" }, { text := "(" },
    { text := "T" }, { text := "&&" }, { text := ")" }, { text := ";" }, { text := "\x7d" },
    { text := ";" },
    { text := "struct" }, { text := "W" }, { text := "\x7b" }, { text := "T" },
    { text := "t", valueType := some { type := "record", scope := some 0 } }, { text := ";" },
    { text := "\x7d" }, { text := ";" },
    { text := "std" }, { text := "::" }, { text := "vector", location := ⟨"a.cpp", 3, 6⟩ },
    { text := "<" }, { text := "W", scope := some 1 }, { text := ">" }, { text := "v" },
    { text := ";" }]
  scopes := [
    { kind := .record, className := "T", id := some "1", bodyStart := some 2
      functions := [{ kind := .moveConstructor, nameToken := some 3 }] },
    { kind := .record, className := "W", id := some "2", bodyStart := some 13
      members := [{ nameToken := some 15, typeStart := some 14, typeEnd := some 14 }] }]

theorem run_deepens_sample :
    SameButDepth (depthOptions 1) (depthOptions 3) 1 3 ∧ ∃ result result',
      (({ options := depthOptions 1 } : Runner).run wrappedVector none {}).1 = .ok result ∧
      (({ options := depthOptions 3 } : Runner).run wrappedVector none {}).1 = .ok result' ∧
      List.Forall₂ Diagnostic.Deepens result.report.diagnostics result'.report.diagnostics ∧
      result.report.diagnostics.map (·.notes.length) = [2] ∧
      result'.report.diagnostics.map (·.notes.length) = [4] := by
  have hoptions := sameButDepth_depthOptions 1 3
  have hselect : ∀ options : Value, (({ options } : Runner).select none).1 = [growthChecker] :=
    fun _ => rfl
  obtain ⟨result, hrun⟩ := exists_run (c := wrappedVector) (s := {}) (hselect (depthOptions 1))
    rfl rfl rfl
  obtain ⟨result', hrun'⟩ := exists_run (c := wrappedVector) (s := {}) (hselect (depthOptions 3))
    rfl rfl rfl
  obtain ⟨halike, -⟩ := run_deepens hoptions (by decide) (by decide) .standard wrappedVector none {}
    (by
      intro checker hmem
      rw [hselect] at hmem
      exact List.mem_singleton.mp hmem)
  rw [hrun, hrun'] at halike
  cases halike with
  | succeeded hdeepens =>
    refine ⟨hoptions, result, result', hrun, hrun', hdeepens, ?_, ?_⟩
    · rw [diagnostics_of_run (hselect _) rfl hrun]
      decide +kernel
    · rw [diagnostics_of_run (hselect _) rfl hrun']
      decide +kernel

end Runner

end GrowthAudit
