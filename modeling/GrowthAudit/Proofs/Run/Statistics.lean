import GrowthAudit.Proofs.Run.Findings
import GrowthAudit.Proofs.Run.Outcome
import Mathlib.Data.Option.NAry

/-!
# Statistics of a run

A run keeps one table of statistics, with each key once, and a combined run adds up the tables of
its single runs.  As long as a statistic is an integer everywhere, what it comes to is the sum;
where one of the runs has recorded something else, it is no integer from there on.

* `Stats.count?`: the integer that a statistic stands for, zero where it is not recorded.
* `Stats.count?_addStat`, `Stats.count?_addStats`: what adding an entry, and adding a table, does to
  it.
* `Runner.run_keeps`: what every pass of a checker keeps, holds of the report of a run.
* `Runner.nodup_keys_of_run`: so no key is twice in the table of a run, and none is added twice.
-/

namespace GrowthAudit

/-! ### Keys -/

theorem Stats.nodup_keys_update {stats : Stats} (h : (stats.map Prod.fst).Nodup)
    (entries : Stats) : ((Stats.update stats entries).map Prod.fst).Nodup := by
  rw [Stats.update]
  induction entries generalizing stats with
  | nil => exact h
  | cons e entries ih => exact ih (nodup_keys_setEntry _ _ h)

namespace Runner

/-- **What a pass keeps, a run keeps.** -/
theorem runCheckers_keeps {P : Report → Prop}
    (hpass : ∀ report checker ds elapsed stats, P report →
      P (report.addPass checker ds elapsed stats))
    {options : Value} {c : Configuration} {suppressions : Suppressions} {checkers : List Checker}
    {stats : Stats} {before after : RunResult} {clock : Clock} (hbefore : P before.report)
    (h : (runCheckers options c suppressions checkers stats before clock).1 = .ok after) :
    P after.report := by
  induction checkers generalizing stats before clock with
  | nil =>
    cases h
    exact hbefore
  | cons checker checkers ih =>
    obtain ⟨ds, log, milliseconds, clock', -, hrest⟩ := exists_pass_of_runCheckers_cons h
    exact ih (hpass _ _ _ _ _ hbefore) hrest

theorem run_keeps {P : Report → Prop}
    (hpass : ∀ report checker ds elapsed stats, P report →
      P (report.addPass checker ds elapsed stats))
    {r : Runner} {c : Configuration} {checkers : Option (List String)} {s : Session}
    {result : RunResult} (hempty : P {}) (h : (r.run c checkers s).1 = .ok result) :
    P result.report := by
  rw [run_of_load (load_of_run h)] at h
  exact runCheckers_keeps hpass hempty h

/-- No key is twice in the statistics of a run. -/
theorem nodup_keys_of_run {r : Runner} {c : Configuration} {checkers : Option (List String)}
    {s : Session} {result : RunResult} (h : (r.run c checkers s).1 = .ok result) :
    (result.report.stats.map Prod.fst).Nodup := by
  refine run_keeps (P := fun report => (report.stats.map Prod.fst).Nodup) ?_ List.nodup_nil h
  intro report checker ds elapsed stats hreport
  exact Stats.nodup_keys_update (nodup_keys_setEntry _ _ hreport) stats

end Runner

/-! ### Counts -/

def Number.integer? : Number → Option Int
  | .int n => some n
  | .float _ => none

/-- The integer that a value counts as; a truth value counts as one or zero. -/
def Value.integer? (v : Value) : Option Int := v.number?.bind Number.integer?

/-- The integer that a statistic stands for, zero if it is not recorded. -/
def Stats.count? (stats : Stats) (key : String) : Option Int :=
  ((stats.lookup key).getD (.int 0)).integer?

/-- Sums of integers are integers, and a double makes every sum a double. -/
theorem Number.integer?_add {a b sum : Number} (h : a.add? b = some sum) :
    sum.integer? = Option.map₂ (· + ·) a.integer? b.integer? := by
  match a, b with
  | .int m, .int n =>
    cases h
    rfl
  | .float x, .float y =>
    cases h
    rfl
  | .int _, .float _ | .float _, .int _ =>
    simp only [add?, Option.bind_eq_bind, Option.bind_eq_some_iff] at h
    obtain ⟨_, -, _, -, h⟩ := h
    cases h
    rfl

theorem Number.integer?_toValue (n : Number) : n.toValue.integer? = n.integer? := by
  cases n <;> rfl

namespace Stats

variable {stats stats' : Stats}

theorem count?_nil (key : String) : Stats.count? [] key = some 0 := rfl

theorem count?_cons (key : String) (e : String × Value) :
    Stats.count? (e :: stats) key = if key = e.1 then e.2.integer? else Stats.count? stats key := by
  rw [count?, lookup_cons_eq_ite]
  split <;> rfl

theorem count?_of_notMem {key : String} (h : key ∉ stats.map Prod.fst) :
    Stats.count? stats key = some 0 := by
  induction stats with
  | nil => rfl
  | cons e stats ih =>
    rw [List.map_cons, List.mem_cons, not_or] at h
    rw [count?_cons, if_neg h.1, ih h.2]

/-- Adding an entry adds to the count of its key, and to no other. -/
theorem count?_addStat {e : String × Value} (h : Report.addStat stats e = .ok stats')
    (key : String) :
    Stats.count? stats' key =
      if key = e.1 then Option.map₂ (· + ·) (Stats.count? stats key) e.2.integer?
      else Stats.count? stats key := by
  rw [Report.addStat] at h
  split at h
  · next a b ha hb =>
    split at h
    · next sum hsum =>
      cases h
      rw [count?, lookup_setEntry]
      by_cases hkey : key = e.1
      · have hbefore : Stats.count? stats key = a.integer? := by
          rw [count?, Value.integer?, hkey, ha, Option.bind_some]
        have hentry : e.2.integer? = b.integer? := by rw [Value.integer?, hb, Option.bind_some]
        rw [if_pos hkey, if_pos hkey, Option.getD_some, Number.integer?_toValue,
          Number.integer?_add hsum, hbefore, hentry]
      · rw [if_neg hkey, if_neg hkey, count?]
    · cases h
  · cases h

/-- **Adding a table** in which no key is twice adds up the counts. -/
theorem count?_addStats {entries : Stats} (hkeys : (entries.map Prod.fst).Nodup)
    (h : entries.foldlM Report.addStat stats = .ok stats') (key : String) :
    Stats.count? stats' key =
      Option.map₂ (· + ·) (Stats.count? stats key) (Stats.count? entries key) := by
  induction entries generalizing stats with
  | nil =>
    cases h
    rw [count?_nil, Option.map₂_right_identity Int.add_zero]
  | cons e entries ih =>
    rw [List.map_cons, List.nodup_cons] at hkeys
    rw [List.foldlM_cons] at h
    obtain ⟨between, hadd, hrest⟩ := Outcome.of_bind_eq_ok h
    rw [ih hkeys.2 hrest, count?_addStat hadd, count?_cons]
    by_cases hkey : key = e.1
    · -- the key is in no later entry
      have hlater : Stats.count? entries key = some 0 := count?_of_notMem (hkey ▸ hkeys.1)
      rw [if_pos hkey, if_pos hkey, hlater, Option.map₂_right_identity Int.add_zero]
    · rw [if_neg hkey, if_neg hkey]

end Stats

end GrowthAudit
