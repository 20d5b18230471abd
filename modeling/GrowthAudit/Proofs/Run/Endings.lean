import GrowthAudit.Proofs.Run.Combined

/-!
# How combined runs end

Whether a combined run of standard checkers comes to an end has nothing to do with what its
configurations contain, as long as their comments can be read.  A checker fails for all
configurations or for none, and the clock does not know which one is examined.  The statistics may
still fail to add up, but only one of them depends on a configuration: the number of its sites.  It
is an integer, and if another checker writes over it, then it does so for all configurations.

* `Value.Interchangeable`, `Value.SameSort`: how the statistics of two runs are related, with the
  same clock and with any two clocks.
* `Runner.run_interchangeable`, `Runner.sameSort_of_run`: runs over two configurations.
* `Stats.Agree`, `Stats.addStats_agree`: sums are integers or the same.
* `Runner.runAll_endsAlike`: combined runs over equally many configurations end alike.
-/

namespace GrowthAudit

open Outcome

/-! ### Related statistics -/

namespace Value

/-- Both values count as integers, or neither does. -/
def SameSort (v v' : Value) : Prop := v.integer?.isSome = v'.integer?.isSome

/-- Both values count as integers, or they are the same. -/
def Interchangeable (v v' : Value) : Prop :=
  (v.integer?.isSome = true ∧ v'.integer?.isSome = true) ∨ v = v'

theorem Interchangeable.sameSort {v v' : Value} (h : v.Interchangeable v') : v.SameSort v' := by
  rcases h with ⟨h, h'⟩ | rfl
  · exact h.trans h'.symm
  · rfl

end Value

/-- The same keys with related values. -/
def Stats.Rel (R : Value → Value → Prop) : Stats → Stats → Prop :=
  List.Forall₂ fun e e' => e.1 = e'.1 ∧ R e.2 e'.2

namespace Stats.Rel

variable {R S : Value → Value → Prop} {stats stats' entries entries' : Stats}

theorem refl (hR : ∀ v, R v v) (stats : Stats) : Stats.Rel R stats stats :=
  List.forall₂_same.mpr fun e _ => ⟨rfl, hR e.2⟩

theorem mono (h : Stats.Rel R stats stats') (hRS : ∀ v v', R v v' → S v v') :
    Stats.Rel S stats stats' :=
  List.Forall₂.imp (fun _ _ he => ⟨he.1, hRS _ _ he.2⟩) h

theorem setEntry {v v' : Value} (h : Stats.Rel R stats stats') (key : String) (hv : R v v') :
    Stats.Rel R (setEntry key v stats) (setEntry key v' stats') := by
  induction h with
  | nil => exact .cons ⟨rfl, hv⟩ .nil
  | @cons e e' rest rest' he hrest ih =>
    obtain ⟨k, a⟩ := e
    obtain ⟨_, a'⟩ := e'
    obtain ⟨rfl, ha⟩ := he
    simp only [GrowthAudit.setEntry]
    split
    · exact .cons ⟨rfl, hv⟩ hrest
    · exact .cons ⟨rfl, ha⟩ ih

theorem update (h : Stats.Rel R stats stats') (hentries : Stats.Rel R entries entries') :
    Stats.Rel R (Stats.update stats entries) (Stats.update stats' entries') := by
  rw [Stats.update, Stats.update]
  induction hentries generalizing stats stats' with
  | nil => exact h
  | @cons e e' rest rest' he _ ih =>
    obtain ⟨key, v⟩ := e
    obtain ⟨_, v'⟩ := e'
    obtain ⟨rfl, hv⟩ := he
    exact ih (h.setEntry key hv)

/-- The same statistics count as integers. -/
theorem isSome_count? (h : Stats.Rel Value.SameSort stats stats') (key : String) :
    (Stats.count? stats key).isSome = (Stats.count? stats' key).isSome := by
  induction h with
  | nil => rfl
  | cons he _ ih =>
    obtain ⟨hkey, hsort⟩ := he
    rw [Stats.count?_cons, Stats.count?_cons, ← hkey]
    split
    · exact hsort
    · exact ih

end Stats.Rel

/-! ### Runs over two configurations -/

namespace Checker.Standard

variable {checker : Checker} (h : checker.Standard) (options : Value) (c c' : Configuration)

include h

/-- What a standard checker records depends on the configuration in its number of sites only. -/
theorem interchangeable_stats :
    Stats.Rel Value.Interchangeable (checker.inspect options c).stats
      (checker.inspect options c').stats := by
  cases h with
  | growth =>
    simp only [growthChecker, GrowthChecker.inspect]
    cases Settings.ofOptions options with
    | error failure => exact .nil
    | ok settings => exact .cons ⟨rfl, .inl ⟨rfl, rfl⟩⟩ .nil
  | scripted script => exact Stats.Rel.refl (fun v => .inr rfl) _

/-- A standard checker fails for all configurations alike. -/
theorem shown_alike (suppressions suppressions' : Suppressions) :
    Alike (fun _ _ => True)
      (Runner.shown suppressions checker.name (checker.inspect options c).result)
      (Runner.shown suppressions' checker.name (checker.inspect options c').result) := by
  have hanswers : Alike (fun _ _ => True) (checker.inspect options c).result
      (checker.inspect options c').result := by
    cases h with
    | growth =>
      simp only [growthChecker, GrowthChecker.inspect]
      cases Settings.ofOptions options with
      | error failure => exact .failed
      | ok settings => exact .succeeded trivial
    | scripted script => exact Alike.of_refl (fun _ => trivial) _
  generalize (checker.inspect options c).result = answer at hanswers ⊢
  generalize (checker.inspect options c').result = answer' at hanswers ⊢
  cases hanswers with
  | @failed failure =>
    cases failure with
    | audit e => exact .succeeded trivial
    | _ => exact .failed
  | succeeded _ => exact .succeeded trivial

end Checker.Standard

namespace Runner

/-- Whatever the clocks show, the same statistics of two runs count as integers.  The induction is
on the checkers. -/
theorem sameSort_of_runCheckers {options : Value} {c c' : Configuration}
    {suppressions suppressions' : Suppressions} {selected : List Checker}
    (hselected : ∀ checker ∈ selected, checker.Standard) {stats stats' : Stats}
    {before before' after after' : RunResult} {clock clock' : Clock}
    (hreport : Stats.Rel Value.SameSort before.report.stats before'.report.stats)
    (hstats : Stats.Rel Value.SameSort stats stats')
    (h : (runCheckers options c suppressions selected stats before clock).1 = .ok after)
    (h' : (runCheckers options c' suppressions' selected stats' before' clock').1 = .ok after') :
    Stats.Rel Value.SameSort after.report.stats after'.report.stats := by
  induction selected generalizing stats stats' before before' clock clock' with
  | nil =>
    cases h
    cases h'
    exact hreport
  | cons checker selected ih =>
    obtain ⟨_, _, milliseconds, _, -, hrest⟩ := exists_pass_of_runCheckers_cons h
    obtain ⟨_, _, milliseconds', _, -, hrest'⟩ := exists_pass_of_runCheckers_cons h'
    have hrecorded := hstats.update <|
      ((hselected checker List.mem_cons_self).interchangeable_stats options c c').mono
        fun _ _ => Value.Interchangeable.sameSort
    have htimed : Stats.Rel Value.SameSort
        (setEntry (Report.elapsedKey checker.name) (.float milliseconds) before.report.stats)
        (setEntry (Report.elapsedKey checker.name) (.float milliseconds') before'.report.stats) :=
      hreport.setEntry _ rfl
    exact ih (fun checker hmem => hselected checker (List.mem_cons_of_mem _ hmem))
      (htimed.update hrecorded) hrecorded hrest hrest'

variable {r : Runner} {checkers : Option (List String)}
  (hstandard : ∀ checker ∈ (r.select checkers).1, checker.Standard)

include hstandard

/-- With the same clock, runs over two configurations end alike, and record interchangeable
statistics. -/
theorem run_interchangeable {c c' : Configuration} (hc : c.Readable) (hc' : c'.Readable)
    {s s' : Session} (hclock : s.clock = s'.clock) :
    Alike
        (fun part part' => Stats.Rel Value.Interchangeable part.report.stats part'.report.stats)
        (r.run c checkers s).1 (r.run c' checkers s').1 ∧
      (r.run c checkers s).2.clock = (r.run c' checkers s').2.clock := by
  rw [run_of_load ((c.readable_iff s.suppressions).mp hc),
    run_of_load ((c'.readable_iff s'.suppressions).mp hc'), ← hclock]
  have hcheckers : ∀ checker ∈ (r.select checkers).1,
      Alike
        (GoesOn
          (fun part stats part' stats' =>
            Stats.Rel Value.Interchangeable part.report.stats part'.report.stats ∧
              Stats.Rel Value.Interchangeable stats stats')
          checker.name (checker.inspect r.options c).stats (checker.inspect r.options c').stats)
        (shown (s.suppressions.load c.suppressions).1 checker.name
          (checker.inspect r.options c).result)
        (shown (s'.suppressions.load c'.suppressions).1 checker.name
          (checker.inspect r.options c').result) := by
    intro checker hmem
    refine ((hstandard checker hmem).shown_alike r.options c c' _ _).mono ?_
    intro p p' _ before stats before' stats' elapsed hbefore
    have hrecorded := hbefore.2.update
      ((hstandard checker hmem).interchangeable_stats r.options c c')
    exact ⟨(hbefore.1.setEntry _ (.inr rfl)).update hrecorded, hrecorded⟩
  refine And.imp_left (fun halike => halike.mono ?_)
    (runCheckers_lockstep hcheckers s.clock ⟨.nil, .nil⟩)
  rintro _ _ ⟨_, _, hstats, -⟩
  exact hstats

theorem sameSort_of_run {c c' : Configuration} {s s' : Session} {part part' : RunResult}
    (h : (r.run c checkers s).1 = .ok part) (h' : (r.run c' checkers s').1 = .ok part') :
    Stats.Rel Value.SameSort part.report.stats part'.report.stats := by
  rw [run_of_load (load_of_run h)] at h
  rw [run_of_load (load_of_run h')] at h'
  refine sameSort_of_runCheckers hstandard ?_ ?_ h h'
  · exact .nil
  · exact .nil

/-- Which statistics count as integers is the same for all runs. -/
theorem exists_counted : ∃ counted : String → Bool, ∀ c s part,
    (r.run c checkers s).1 = .ok part →
      ∀ key, (Stats.count? part.report.stats key).isSome = counted key := by
  by_cases hruns : ∃ c s part, (r.run c checkers s).1 = .ok part
  · obtain ⟨c₀, s₀, part₀, h₀⟩ := hruns
    exact ⟨fun key => (Stats.count? part₀.report.stats key).isSome, fun c s part h key =>
      (sameSort_of_run hstandard h h₀).isSome_count? key⟩
  · exact ⟨fun _ => false, fun c s part h => absurd ⟨c, s, part, h⟩ hruns⟩

end Runner

/-! ### Sums -/

/-- The sum of two values, as far as they are numbers. -/
def Value.sum (a b : Value) : Except Failure Value :=
  match a.number?, b.number? with
  | some m, some n =>
    match m.add? n with
    | some sum => .ok sum.toValue
    | none => .error .numberTooLarge
  | _, _ => .error .statNotNumber

/-- The values are integers where a key is counted, and the same where it is not. -/
def Value.Matches (counted : Bool) (v v' : Value) : Prop :=
  if counted = true then v.integer?.isSome = true ∧ v'.integer?.isSome = true else v = v'

theorem Value.number?_of_integer? {v : Value} (h : v.integer?.isSome = true) :
    ∃ n, v.number? = some (.int n) := by
  cases v with
  | bool b => exact ⟨_, rfl⟩
  | int n => exact ⟨n, rfl⟩
  | _ => cases h

/-- Sums of integers are integers, and other sums are the same or fail in the same way. -/
theorem Value.Matches.sum {counted : Bool} {a a' v v' : Value} (ha : Matches counted a a')
    (hv : Matches counted v v') : Alike (Matches counted) (a.sum v) (a'.sum v') := by
  cases counted with
  | false =>
    obtain rfl : a = a' := ha
    obtain rfl : v = v' := hv
    exact Alike.of_refl (fun _ => rfl) _
  | true =>
    obtain ⟨m, hm⟩ := number?_of_integer? ha.1
    obtain ⟨m', hm'⟩ := number?_of_integer? ha.2
    obtain ⟨n, hn⟩ := number?_of_integer? hv.1
    obtain ⟨n', hn'⟩ := number?_of_integer? hv.2
    rw [Value.sum, Value.sum, hm, hm', hn, hn']
    exact .succeeded ⟨rfl, rfl⟩

namespace Stats

/-- The value of a statistic, zero if it is not recorded. -/
def value (stats : Stats) (key : String) : Value := (stats.lookup key).getD (.int 0)

theorem value_setEntry (stats : Stats) (key k : String) (v : Value) :
    Stats.value (setEntry key v stats) k = if k = key then v else Stats.value stats k := by
  rw [value, lookup_setEntry]
  split <;> rfl

theorem addStat_eq (stats : Stats) (e : String × Value) :
    Report.addStat stats e = ((Stats.value stats e.1).sum e.2).map (setEntry e.1 · stats) := by
  simp only [Report.addStat, value, Value.sum]
  cases ((stats.lookup e.1).getD (.int 0)).number? with
  | none => rfl
  | some m =>
    cases e.2.number? with
    | none => rfl
    | some n =>
      simp only
      cases m.add? n <;> rfl

/-- Two sums of tables have integers where keys are counted, and the same values elsewhere. -/
def Agree (counted : String → Bool) (stats stats' : Stats) : Prop :=
  ∀ key, Value.Matches (counted key) (Stats.value stats key) (Stats.value stats' key)

variable {counted : String → Bool} {stats stats' entries entries' : Stats}

theorem addStat_agree (h : Agree counted stats stats') {e e' : String × Value}
    (hkey : e.1 = e'.1) (hvalue : Value.Matches (counted e.1) e.2 e'.2) :
    Alike (Agree counted) (Report.addStat stats e) (Report.addStat stats' e') := by
  rw [addStat_eq, addStat_eq, ← hkey]
  have hsum := (h e.1).sum hvalue
  generalize (Stats.value stats e.1).sum e.2 = sum at hsum ⊢
  generalize (Stats.value stats' e.1).sum e'.2 = sum' at hsum ⊢
  cases hsum with
  | failed => exact .failed
  | succeeded hsum =>
    refine .succeeded fun key => ?_
    rw [value_setEntry, value_setEntry]
    split
    · next heq => exact heq ▸ hsum
    · exact h key

/-- **Adding two tables to two sums** that agree fails in both cases alike, or the sums agree. -/
theorem addStats_agree (h : Agree counted stats stats')
    (hentries : List.Forall₂ (fun e e' => e.1 = e'.1 ∧ Value.Matches (counted e.1) e.2 e'.2)
      entries entries') :
    Alike (Agree counted) (entries.foldlM Report.addStat stats)
      (entries'.foldlM Report.addStat stats') := by
  induction hentries generalizing stats stats' with
  | nil => exact .succeeded h
  | cons he _ ih =>
    rw [List.foldlM_cons, List.foldlM_cons]
    exact (addStat_agree h he.1 he.2).bind fun _ _ => ih

/-- The count of a key that is in no other entry. -/
theorem count?_of_mem (hkeys : (stats.map Prod.fst).Nodup) {e : String × Value} (he : e ∈ stats) :
    Stats.count? stats e.1 = e.2.integer? := by
  induction stats with
  | nil => cases he
  | cons first stats ih =>
    rw [List.map_cons, List.nodup_cons] at hkeys
    rw [count?_cons]
    rcases List.mem_cons.mp he with rfl | he
    · rw [if_pos rfl]
    · have hne : e.1 ≠ first.1 := fun heq => hkeys.1 (heq ▸ List.mem_map_of_mem he)
      rw [if_neg hne, ih hkeys.2 he]

/-- Tables of two runs, with the keys that all runs count, can be added to sums that agree. -/
theorem Rel.matches (h : Stats.Rel Value.Interchangeable entries entries')
    (hkeys : (entries.map Prod.fst).Nodup)
    (hcounted : ∀ key, (Stats.count? entries key).isSome = counted key) :
    List.Forall₂ (fun e e' => e.1 = e'.1 ∧ Value.Matches (counted e.1) e.2 e'.2)
      entries entries' := by
  obtain ⟨hlength, hall⟩ := List.forall₂_iff_zip.mp h
  refine List.forall₂_iff_zip.mpr ⟨hlength, fun {e e'} hmem => ?_⟩
  obtain ⟨hkey, hvalue⟩ := hall hmem
  refine ⟨hkey, ?_⟩
  rw [← hcounted, count?_of_mem hkeys (List.of_mem_zip hmem).1, Value.Matches]
  split
  · next hinteger => exact ⟨hinteger, hvalue.sameSort ▸ hinteger⟩
  · next hother =>
    rcases hvalue with ⟨hinteger, -⟩ | hsame
    · exact absurd hinteger hother
    · exact hsame

end Stats

/-! ### Combined runs -/

namespace Runner

variable {r : Runner} {checkers : Option (List String)}

theorem runFrom_endsAlike (hstandard : ∀ checker ∈ (r.select checkers).1, checker.Standard)
    {counted : String → Bool}
    (hcounted : ∀ c s part, (r.run c checkers s).1 = .ok part →
      ∀ key, (Stats.count? part.report.stats key).isSome = counted key)
    {cs cs' : List Configuration}
    (hreadable : List.Forall₂ (fun c c' => c.Readable ∧ c'.Readable) cs cs')
    {before before' : RunResult}
    (hbefore : Stats.Agree counted before.report.stats before'.report.stats)
    {s s' : Session} (hclock : s.clock = s'.clock) :
    Alike (fun _ _ => True) (r.runFrom checkers cs before s).1
      (r.runFrom checkers cs' before' s').1 := by
  refine (runFrom_lockstep
    (Q := fun before before' => Stats.Agree counted before.report.stats before'.report.stats)
    (W := fun s s' => s.clock = s'.clock) ?_ hbefore hclock).1.mono fun _ _ _ => trivial
  refine hreadable.imp fun c c' hc before before' s s' hbefore hclock => ?_
  obtain ⟨halike, hclock⟩ := run_interchangeable hstandard hc.1 hc.2 hclock
  refine ⟨halike.with_left.mono ?_, hclock⟩
  rintro part part' ⟨hrun, hstats⟩
  rw [Joins, Report.append?, Report.append?]
  have hsums := Stats.addStats_agree hbefore
    (hstats.matches (nodup_keys_of_run hrun) (hcounted c s part hrun))
  exact hsums.bind fun _ _ hsums => .succeeded hsums

/-- **Combined runs over equally many readable configurations end alike.** -/
theorem runAll_endsAlike (hstandard : ∀ checker ∈ (r.select checkers).1, checker.Standard)
    {cs cs' : List Configuration} (hlength : cs.length = cs'.length)
    (hcs : ∀ c ∈ cs, c.Readable) (hcs' : ∀ c ∈ cs', c.Readable) {s s' : Session}
    (hclock : s.clock = s'.clock) :
    Alike (fun _ _ => True) (r.runAll cs checkers s).1 (r.runAll cs' checkers s').1 := by
  obtain ⟨counted, hcounted⟩ := exists_counted hstandard
  refine runFrom_endsAlike hstandard hcounted (List.forall₂_iff_zip.mpr ⟨hlength, ?_⟩) ?_ hclock
  · intro c c' hmem
    exact ⟨hcs c (List.of_mem_zip hmem).1, hcs' c' (List.of_mem_zip hmem).2⟩
  · intro key
    cases counted key with
    | true => exact ⟨rfl, rfl⟩
    | false => exact rfl

end Runner

end GrowthAudit
