import GrowthAudit.Proofs.Run.Combined

/-!
# Checkers do not influence each other

The checkers of a run share the options, the statistics, the clock and the suppressions.  None of
these carries anything from one checker to the diagnostics of another: the options stay as they are,
nobody reads the statistics, and whatever a run adds to the suppressions it had added before its
first checker.

* `Runner.showing`: what checkers show on their own.  By `Runner.runCheckers_showing` they add this
  to whatever was reported before.
* `Runner.showing_append`: the checkers of two lists show what each of the lists shows.
* `Runner.run_isolates`: running two lists of names together shows the same diagnostics, or fails in
  the same way, as running them one after the other.  A checker that gives up adds one complaint and
  changes nothing else.
-/

namespace GrowthAudit

namespace Runner

open Outcome

variable {options : Value} {c : Configuration} {suppressions suppressions' : Suppressions}

/-! ### Runs of several lists of checkers -/

/-- The checkers of the second list go on from the report, the statistics and the clock of the
first. -/
theorem runCheckers_append (xs ys : List Checker) (stats : Stats) (before : RunResult)
    (clock : Clock) :
    ∃ stats', runCheckers options c suppressions (xs ++ ys) stats before clock =
      match runCheckers options c suppressions xs stats before clock with
      | (.ok between, clock) => runCheckers options c suppressions ys stats' between clock
      | (.error failure, clock) => (.error failure, clock) := by
  induction xs generalizing stats before clock with
  | nil => exact ⟨stats, rfl⟩
  | cons checker xs ih =>
    simp only [List.cons_append, runCheckers]
    cases shown suppressions checker.name (checker.inspect options c).result with
    | error failure => exact ⟨stats, rfl⟩
    | ok pass =>
      simp only
      split
      · exact ⟨stats, rfl⟩
      · exact ih _ _ _

/-- What is shown depends on what is covered. -/
theorem shown_congr (h : suppressions.covers = suppressions'.covers) (checker : String)
    (answer : Except Failure (List Diagnostic)) :
    shown suppressions checker answer = shown suppressions' checker answer := by
  cases answer with
  | ok ds => rw [shown, shown, Suppressions.filter, Suppressions.filter, h]
  | error failure => cases failure <;> rfl

/-- What checkers show when they run on their own, and the clock afterwards. -/
def showing (options : Value) (c : Configuration) (suppressions : Suppressions)
    (checkers : List Checker) (clock : Clock) : Except Failure (List Diagnostic) × Clock :=
  ((runCheckers options c suppressions checkers [] {} clock).1.map (·.report.diagnostics),
    (runCheckers options c suppressions checkers [] {} clock).2)

/-- **Checkers add what they show on their own**, whatever was reported and recorded before, and
under any suppressions that cover the same. -/
theorem runCheckers_showing (h : suppressions.covers = suppressions'.covers)
    (checkers : List Checker) (stats : Stats) (before : RunResult) (clock : Clock) :
    (runCheckers options c suppressions checkers stats before clock).1.map (·.report.diagnostics) =
        (showing options c suppressions' checkers clock).1.map (before.report.diagnostics ++ ·) ∧
      (runCheckers options c suppressions checkers stats before clock).2 =
        (showing options c suppressions' checkers clock).2 := by
  have hcheckers : ∀ checker ∈ checkers,
      Alike
        (GoesOn
          (fun r _ r' _ =>
            r.report.diagnostics = before.report.diagnostics ++ r'.report.diagnostics)
          checker.name (checker.inspect options c).stats (checker.inspect options c).stats)
        (shown suppressions checker.name (checker.inspect options c).result)
        (shown suppressions' checker.name (checker.inspect options c).result) := by
    intro checker _
    rw [shown_congr h]
    refine Alike.of_refl ?_ _
    intro pass r stats r' stats' elapsed hds
    simp only [Report.addPass, hds, List.append_assoc]
  have hstart : before.report.diagnostics = before.report.diagnostics ++ [] :=
    (List.append_nil _).symm
  refine And.imp_left (fun halike => (halike.mono ?_).map_eq)
    (runCheckers_lockstep hcheckers clock hstart)
  rintro _ _ ⟨_, _, hds⟩
  exact hds

/-- The checkers of two lists show what each of the lists shows. -/
theorem showing_append (xs ys : List Checker) (clock : Clock) :
    (showing options c suppressions (xs ++ ys) clock).1 = (do
      let ds ← (showing options c suppressions xs clock).1
      let ds' ← (showing options c suppressions ys
        (showing options c suppressions xs clock).2).1
      return ds ++ ds') := by
  obtain ⟨stats, hsplit⟩ := @runCheckers_append options c suppressions xs ys [] {} clock
  rw [showing, hsplit, showing]
  generalize runCheckers options c suppressions xs [] {} clock = first
  obtain ⟨outcome, clock⟩ := first
  cases outcome with
  | error failure => rfl
  | ok between =>
    refine (runCheckers_showing rfl ys stats between clock).1.trans ?_
    cases (showing options c suppressions ys clock).1 <;> rfl

/-! ### Runs by name -/

variable {r : Runner}

theorem byNames_append (xs ys : List String) :
    (r.byNames (xs ++ ys)).1 = (r.byNames xs).1 ++ (r.byNames ys).1 := by
  induction xs with
  | nil => rfl
  | cons name xs ih =>
    simp only [List.cons_append, byNames]
    cases r.registry.get? name with
    | none => exact ih
    | some checker => exact congrArg (checker :: ·) ih

theorem contributions_append (xs ys : List String) (hidden : Diagnostic → Bool) :
    r.contributions (some (xs ++ ys)) c hidden =
      r.contributions (some xs) c hidden ++ r.contributions (some ys) c hidden := by
  simp only [contributions, select, byNames_append, List.flatMap_append]

theorem contributions_cons {name : String} {checker : Checker}
    (hname : r.registry.get? name = some checker) (ys : List String)
    (hidden : Diagnostic → Bool) :
    r.contributions (some (name :: ys)) c hidden =
      contribution r.options c hidden checker ++ r.contributions (some ys) c hidden := by
  simp only [contributions, select, byNames, hname, List.flatMap_cons]

/-- What a run of the checkers with the given names shows. -/
def shownBy (r : Runner) (c : Configuration) (names : List String) (s : Session) :
    Except Failure (List Diagnostic) :=
  (r.run c (some names) s).1.map (·.report.diagnostics)

/-- Once the comments are loaded, a run shows what its checkers show on their own. -/
theorem run_eq_showing {s : Session}
    (hload : s.suppressions.load c.suppressions = (suppressions, none))
    (hcovers : suppressions.covers = suppressions'.covers) (names : List String) :
    r.shownBy c names s = (showing r.options c suppressions' (r.byNames names).1 s.clock).1 ∧
      (r.run c (some names) s).2 =
        ⟨suppressions, (showing r.options c suppressions' (r.byNames names).1 s.clock).2⟩ := by
  have hrun := @run_of_load r c (some names) s (congrArg Prod.snd hload)
  simp only [hload, select] at hrun
  obtain ⟨hshown, hclock⟩ := @runCheckers_showing r.options c _ _ hcovers
    (r.byNames names).1 [] { log := (r.byNames names).2 } s.clock
  rw [shownBy, hrun, hclock]
  refine ⟨hshown.trans ?_, rfl⟩
  cases (showing r.options c suppressions' (r.byNames names).1 s.clock).1 <;> rfl

/-- Loading comments a second time changes nothing that is covered. -/
theorem exists_load_again {s : Suppressions}
    (hload : s.load c.suppressions = (suppressions, none)) :
    ∃ again, suppressions.load c.suppressions = (again, none) ∧
      again.covers = suppressions.covers := by
  have hreadable : c.Readable := (c.readable_iff s).mpr (congrArg Prod.snd hload)
  have hagain := (c.readable_iff suppressions).mp hreadable
  refine ⟨(suppressions.load c.suppressions).1, Prod.ext rfl hagain, funext fun d => ?_⟩
  have hfirst : suppressions.covers d = (s.covers d || c.suppresses d) := by
    rw [Configuration.suppresses, ← Suppressions.covers_load s d (congrArg Prod.snd hload), hload]
  rw [Suppressions.covers_load _ d hagain, ← Configuration.suppresses, hfirst, Bool.or_assoc,
    Bool.or_self]

/-- Two lists of names together show what they show one after the other. -/
theorem shownBy_append (xs ys : List String) (s : Session) :
    r.shownBy c (xs ++ ys) s = (do
      let ds ← r.shownBy c xs s
      let ds' ← r.shownBy c ys (r.run c (some xs) s).2
      return ds ++ ds') := by
  cases hload : s.suppressions.load c.suppressions with
  | mk suppressions failure? =>
    cases failure? with
    | some failure =>
      simp only [shownBy, run, hload]
      rfl
    | none =>
      obtain ⟨again, hagain, hcovers⟩ := exists_load_again hload
      obtain ⟨hfirst, hsession⟩ := run_eq_showing hload rfl xs (r := r)
      rw [(run_eq_showing hload rfl (xs ++ ys)).1, byNames_append, showing_append, hfirst, hsession,
        (run_eq_showing hagain hcovers ys).1]

theorem eq_contributions_of_shownBy {names : List String} {s : Session} {ds : List Diagnostic}
    (h : r.shownBy c names s = .ok ds) :
    ds = r.contributions (some names) c fun d => s.suppressions.covers d || c.suppresses d := by
  rw [shownBy] at h
  cases hrun : (r.run c (some names) s).1 with
  | error failure =>
    rw [hrun] at h
    cases h
  | ok result =>
    rw [hrun] at h
    cases h
    exact contributions_of_run hrun

/-- **Checkers do not influence each other.**  Two lists of names together show the same, or fail in
the same way, as one after the other.  A checker that gives up adds one complaint at its place, and
the others show what they show without it.  A script gives up in whatever phase it fails. -/
theorem run_isolates (r : Runner) (c : Configuration) (s : Session) :
    (∀ xs ys, r.shownBy c (xs ++ ys) s = (do
      let ds ← r.shownBy c xs s
      let ds' ← r.shownBy c ys (r.run c (some xs) s).2
      return ds ++ ds')) ∧
    (∀ name checker e, r.registry.get? name = some checker → checker.GivesUp r.options c e →
      ∀ xs ys clock ds ds', r.shownBy c (xs ++ name :: ys) s = .ok ds →
        r.shownBy c (xs ++ ys) { s with clock } = .ok ds' →
        ∃ before after, r.shownBy c xs s = .ok before ∧ ds' = before ++ after ∧
          ds = before ++ internalError checker.name e :: after) ∧
    ∀ (script : Script) phase e, script.failure = some (phase, .audit e) →
      (∃ shown, script.showOption r.options = .ok shown) →
      script.checker.GivesUp r.options c e := by
  refine ⟨fun xs ys => shownBy_append xs ys s, ?_, fun script phase e hfailure hshown =>
    Script.givesUp hfailure hshown c⟩
  intro name checker e hname hgivesUp xs ys clock ds ds' hwith hwithout
  have hds := eq_contributions_of_shownBy hwith
  have hds' := eq_contributions_of_shownBy hwithout
  rw [contributions_append, contributions_cons hname, contribution_of_givesUp hgivesUp] at hds
  rw [contributions_append] at hds'
  rw [shownBy_append] at hwith
  obtain ⟨before, hbefore, -⟩ := Outcome.of_bind_eq_ok hwith
  refine ⟨before, r.contributions (some ys) c fun d => s.suppressions.covers d || c.suppresses d,
    hbefore, ?_, ?_⟩
  · rw [eq_contributions_of_shownBy hbefore]
    exact hds'
  · rw [eq_contributions_of_shownBy hbefore]
    exact hds

/-- Between the counting script and the growth checker, with a name that is not registered, the
script that gives up adds one complaint. -/
theorem run_isolates_sample :
    scriptedRegistry.get? "quitting" = some quittingScript.checker ∧
      quittingScript.checker.GivesUp .null throwingVector (.failed "out of patience" .null) ∧
      ∃ ds ds' before after,
        ({ registry := scriptedRegistry } : Runner).shownBy throwingVector
          (["counting"] ++ "quitting" :: ["unknown", "vector-pessimization"]) {} = .ok ds ∧
        ({ registry := scriptedRegistry } : Runner).shownBy throwingVector
          (["counting"] ++ ["unknown", "vector-pessimization"]) {} = .ok ds' ∧
        ds' = before ++ after ∧
        ds = before ++
          internalError "quitting" (.failed "out of patience" .null) :: after ∧
        ds.map (·.id) = ["counted", "checkerInternalError", "vectorPessimization"] ∧
        ds'.map (·.id) = ["counted", "vectorPessimization"] := by
  obtain ⟨-, hcomplaint, hscripts⟩ := run_isolates { registry := scriptedRegistry } throwingVector {}
  have hgivesUp : quittingScript.checker.GivesUp .null throwingVector
      (.failed "out of patience" .null) := hscripts quittingScript .diagnose _ rfl ⟨_, rfl⟩
  obtain ⟨before, after, -, hwithout, hwith⟩ := hcomplaint "quitting" quittingScript.checker _
    rfl hgivesUp ["counting"] ["unknown", "vector-pessimization"] {} _ _ rfl rfl
  refine ⟨rfl, hgivesUp, _, _, before, after, rfl, rfl, hwithout, hwith, ?_, ?_⟩
  · decide +kernel
  · decide +kernel

end Runner

end GrowthAudit
