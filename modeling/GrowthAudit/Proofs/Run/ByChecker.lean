import GrowthAudit.Proofs.Run.Combined
import GrowthAudit.Proofs.Run.Registration
import Mathlib.Algebra.GroupWithZero.Action.Defs
import Mathlib.Algebra.Order.BigOperators.Group.Finset
import Mathlib.Algebra.Order.Ring.Nat
import Mathlib.Data.List.Sort

/-!
# Diagnostics by checker

A report keeps its diagnostics in one list, and for each checker the positions of its own ones.
Three things put it together: a pass of a checker over a configuration, which gives the checker new
positions in place of those that it had; the report of a further configuration, whose positions are
added; and the summary, which has a line for each checker.  A checker that is listed twice passes
twice over each configuration, and its first diagnostics are nobody's.

* `Report.Arranged`: what holds of the positions in every report.  Passes keep it, and so does
  joining.
* `Report.sublist_ofChecker`: the diagnostics of a checker stand in their order in the report.
* `Report.partitioned_iff_sum`: they make up the whole report iff their numbers add up.
* `Runner.Accounted`, `Runner.accounted_of_runFrom`: each checker that is listed has added as many
  diagnostics as it has to its name, as often as it is listed, by induction on the configurations.
* `Runner.runAll_partitioned_iff`: **the lists of the checkers make up the report, and the counts of
  the summary add up, iff no checker that is listed twice has diagnostics.**
* `Runner.twice_listed_unpartitioned`: a checker that is listed twice and has something to show.
-/

namespace GrowthAudit

/-! ### Positions of checkers -/

namespace Report

/-- The diagnostics that a checker has to its name. -/
def ofChecker (r : Report) (name : String) : List Diagnostic :=
  (r.positionsOf name).filterMap (r.diagnostics[·]?)

/-- The lists of the checkers together hold every diagnostic as often as the report does. -/
def Partitioned (r : Report) : Prop :=
  ((r.byChecker.map Prod.fst).flatMap r.ofChecker).Perm r.diagnostics

/-- Positions belong to the checkers that have been running.  Those of a checker are in ascending
order and lie within the report, and no two checkers share one. -/
structure Arranged (r : Report) : Prop where
  nodup_keys : (r.byChecker.map Prod.fst).Nodup
  mem_checkers : ∀ name, name ∈ r.checkers ↔ name ∈ r.byChecker.map Prod.fst
  ascending : ∀ name, (r.positionsOf name).Pairwise (· < ·)
  bounded : ∀ name, ∀ p ∈ r.positionsOf name, p < r.diagnostics.length
  apart : ∀ name name' p, p ∈ r.positionsOf name → p ∈ r.positionsOf name' → name = name'

variable {r part joined : Report}

theorem arranged_empty : Arranged {} where
  nodup_keys := List.nodup_nil
  mem_checkers _ := Iff.rfl
  ascending _ := List.Pairwise.nil
  bounded _ _ hp := absurd hp List.not_mem_nil
  apart _ _ _ hp := absurd hp List.not_mem_nil

/-- A pass gives its checker the positions of the new diagnostics, and nothing to any other. -/
theorem positionsOf_addPass (checker : String) (ds : List Diagnostic) (elapsed : Number)
    (stats : Stats) (name : String) :
    (r.addPass checker ds elapsed stats).positionsOf name =
      if name = checker then List.range' r.diagnostics.length ds.length else r.positionsOf name := by
  rw [positionsOf, addPass, lookup_setEntry]
  split
  · rfl
  · rfl

theorem Arranged.addPass (h : r.Arranged) (checker : String) (ds : List Diagnostic)
    (elapsed : Number) (stats : Stats) : (r.addPass checker ds elapsed stats).Arranged := by
  have hlength : (r.addPass checker ds elapsed stats).diagnostics.length =
      r.diagnostics.length + ds.length := List.length_append
  refine ⟨nodup_keys_setEntry _ _ h.nodup_keys, ?_, ?_, ?_, ?_⟩
  · intro name
    show name ∈ r.checkers ++ [checker] ↔ _
    rw [List.mem_append, List.mem_singleton, h.mem_checkers, Report.addPass, mem_keys_setEntry,
      or_comm]
  · intro name
    rw [positionsOf_addPass]
    split
    · exact List.pairwise_lt_range' 1
    · exact h.ascending name
  · intro name p hp
    rw [positionsOf_addPass] at hp
    rw [hlength]
    split at hp
    · exact (List.mem_range'_1.mp hp).2
    · have hlt := h.bounded name p hp
      omega
  · intro name name' p hp hp'
    -- the new positions lie behind all that there were
    rw [positionsOf_addPass] at hp hp'
    split at hp <;> split at hp'
    · next hname hname' => rw [hname, hname']
    · have hge := (List.mem_range'_1.mp hp).1
      have hlt := h.bounded name' p hp'
      omega
    · have hge := (List.mem_range'_1.mp hp').1
      have hlt := h.bounded name p hp
      omega
    · exact h.apart name name' p hp hp'

/-! ### Joining reports -/

/-- The names and the positions of a joint report. -/
theorem byChecker_of_append? (h : r.append? part = .ok joined) :
    joined.byChecker = part.byChecker.foldl (addPositions r.diagnostics.length) r.byChecker ∧
      joined.checkers = part.checkers.foldl
        (fun names n => if names.contains n then names else names ++ [n]) r.checkers := by
  obtain ⟨stats, -, hjoined⟩ := Outcome.of_bind_eq_ok h
  cases hjoined
  exact ⟨rfl, rfl⟩

/-- Names are added to those that there are, each once. -/
theorem nodup_and_mem_foldl_names (names added : List String) :
    (names.Nodup → (added.foldl
        (fun names n => if names.contains n then names else names ++ [n]) names).Nodup) ∧
      ∀ name, name ∈ added.foldl
          (fun names n => if names.contains n then names else names ++ [n]) names ↔
        name ∈ names ∨ name ∈ added := by
  induction added generalizing names with
  | nil => simp
  | cons n added ih =>
    rw [List.foldl_cons]
    by_cases hn : n ∈ names
    · rw [if_pos (List.contains_iff_mem.mpr hn)]
      refine ⟨(ih names).1, fun name => ?_⟩
      rw [(ih names).2, List.mem_cons]
      constructor
      · exact Or.imp_right .inr
      · rintro (h | rfl | h)
        · exact .inl h
        · exact .inl hn
        · exact .inr h
    · rw [if_neg (by simpa using hn)]
      refine ⟨fun hnodup => (ih _).1 (by simpa using hnodup.concat hn), fun name => ?_⟩
      rw [(ih _).2, List.mem_append, List.mem_singleton, List.mem_cons, or_assoc]

theorem mem_keys_foldl_addPositions (offset : Nat) (added byChecker : List (String × List Nat))
    (name : String) :
    name ∈ (added.foldl (addPositions offset) byChecker).map Prod.fst ↔
      name ∈ byChecker.map Prod.fst ∨ name ∈ added.map Prod.fst := by
  induction added generalizing byChecker with
  | nil => simp
  | cons e added ih =>
    rw [List.foldl_cons, ih, addPositions, mem_keys_setEntry, List.map_cons, List.mem_cons, or_assoc,
      or_left_comm]

theorem nodup_keys_foldl_addPositions (offset : Nat) (added : List (String × List Nat))
    {byChecker : List (String × List Nat)} (h : (byChecker.map Prod.fst).Nodup) :
    ((added.foldl (addPositions offset) byChecker).map Prod.fst).Nodup := by
  induction added generalizing byChecker with
  | nil => exact h
  | cons e added ih => exact ih (nodup_keys_setEntry _ _ h)

/-- Each checker gets the positions that are added under its name, shifted behind those that there
were. -/
theorem lookup_foldl_addPositions (offset : Nat) {added : List (String × List Nat)}
    (h : (added.map Prod.fst).Nodup) (byChecker : List (String × List Nat)) (name : String) :
    ((added.foldl (addPositions offset) byChecker).lookup name).getD [] =
      (byChecker.lookup name).getD [] ++
        ((added.lookup name).getD []).map (offset + ·) := by
  induction added generalizing byChecker with
  | nil => simp
  | cons e added ih =>
    rw [List.map_cons, List.nodup_cons] at h
    obtain ⟨key, positions⟩ := e
    rw [List.foldl_cons, ih h.2, addPositions, lookup_setEntry, lookup_cons_eq_ite]
    by_cases hname : name = key
    · -- the key is in no later entry
      have hlater : added.lookup name = none := lookup_eq_none_iff_notMem.mpr (hname ▸ h.1)
      rw [if_pos hname, if_pos hname, hlater, hname]
      simp
    · rw [if_neg hname, if_neg hname]

theorem positionsOf_of_append? (hpart : part.Arranged) (h : r.append? part = .ok joined)
    (name : String) :
    joined.positionsOf name =
      r.positionsOf name ++ (part.positionsOf name).map (r.diagnostics.length + ·) := by
  rw [positionsOf, (byChecker_of_append? h).1, lookup_foldl_addPositions _ hpart.nodup_keys]
  rfl

theorem Arranged.append? (hr : r.Arranged) (hpart : part.Arranged)
    (h : r.append? part = .ok joined) : joined.Arranged := by
  obtain ⟨hkeys, hcheckers⟩ := byChecker_of_append? h
  have hlength : joined.diagnostics.length = r.diagnostics.length + part.diagnostics.length := by
    rw [(of_append? h).1, List.length_append]
  have hshifted : ∀ name, ∀ p ∈ (part.positionsOf name).map (r.diagnostics.length + ·),
      r.diagnostics.length ≤ p ∧ p < joined.diagnostics.length := by
    intro name p hp
    obtain ⟨q, hq, rfl⟩ := List.mem_map.mp hp
    have hlt := hpart.bounded name q hq
    omega
  refine ⟨?_, ?_, ?_, ?_, ?_⟩
  · rw [hkeys]
    exact nodup_keys_foldl_addPositions _ _ hr.nodup_keys
  · intro name
    rw [hkeys, hcheckers, (nodup_and_mem_foldl_names _ _).2, mem_keys_foldl_addPositions,
      hr.mem_checkers, hpart.mem_checkers]
  · intro name
    rw [positionsOf_of_append? hpart h, List.pairwise_append, List.pairwise_map]
    refine ⟨hr.ascending name, (hpart.ascending name).imp fun hlt => Nat.add_lt_add_left hlt _, ?_⟩
    intro p hp q hq
    exact Nat.lt_of_lt_of_le (hr.bounded name p hp) (hshifted name q hq).1
  · intro name p hp
    rw [positionsOf_of_append? hpart h, List.mem_append] at hp
    rcases hp with hp | hp
    · have hlt := hr.bounded name p hp
      omega
    · exact (hshifted name p hp).2
  · intro name name' p hp hp'
    rw [positionsOf_of_append? hpart h, List.mem_append] at hp hp'
    rcases hp with hp | hp <;> rcases hp' with hp' | hp'
    · exact hr.apart name name' p hp hp'
    · exact absurd (hr.bounded name p hp) (Nat.not_lt_of_le (hshifted name' p hp').1)
    · exact absurd (hr.bounded name' p hp') (Nat.not_lt_of_le (hshifted name p hp).1)
    · obtain ⟨q, hq, rfl⟩ := List.mem_map.mp hp
      obtain ⟨q', hq', heq⟩ := List.mem_map.mp hp'
      obtain rfl : q' = q := Nat.add_left_cancel heq
      exact hpart.apart name name' q' hq hq'

/-! ### What the positions say -/

theorem filterMap_range_getElem? (l : List α) : (List.range l.length).filterMap (l[·]?) = l := by
  induction l with
  | nil => rfl
  | cons a l ih =>
    rw [List.length_cons, List.range_succ_eq_map, List.filterMap_cons, List.filterMap_map]
    exact congrArg (a :: ·) ih

theorem length_ofChecker (h : r.Arranged) (name : String) :
    (r.ofChecker name).length = (r.positionsOf name).length := by
  rw [ofChecker, List.filterMap_length_eq_length]
  intro p hp
  simpa using h.bounded name p hp

/-- **The diagnostics of a checker stand in their order in the report.** -/
theorem sublist_ofChecker (h : r.Arranged) (name : String) :
    (r.ofChecker name).Sublist r.diagnostics := by
  have hnodup : (r.positionsOf name).Nodup := (h.ascending name).imp Nat.ne_of_lt
  have hsubset : r.positionsOf name ⊆ List.range r.diagnostics.length :=
    fun p hp => List.mem_range.mpr (h.bounded name p hp)
  have hpositions : (r.positionsOf name).Sublist (List.range r.diagnostics.length) :=
    List.sublist_of_subperm_of_pairwise (List.subperm_of_subset hnodup hsubset)
      (h.ascending name) List.pairwise_lt_range
  have hsub := hpositions.filterMap (r.diagnostics[·]?)
  rwa [filterMap_range_getElem?] at hsub

/-- A checker that has not been running has no diagnostics. -/
theorem ofChecker_eq_nil (h : r.Arranged) {name : String} (hname : name ∉ r.checkers) :
    r.ofChecker name = [] := by
  have hlookup : r.byChecker.lookup name = none :=
    lookup_eq_none_iff_notMem.mpr fun hkey => hname ((h.mem_checkers _).mpr hkey)
  rw [ofChecker, positionsOf, hlookup]
  rfl

/-- Different checkers have different positions. -/
theorem nodup_flatMap_positionsOf (h : r.Arranged) {names : List String} (hnodup : names.Nodup) :
    (names.flatMap r.positionsOf).Nodup := by
  rw [List.nodup_flatMap]
  refine ⟨fun name _ => (h.ascending name).imp Nat.ne_of_lt, hnodup.imp ?_⟩
  intro name name' hne p hp hp'
  exact hne (h.apart name name' p hp hp')

/-- **The lists of the checkers make up the report iff their lengths add up**, for nothing is
counted twice. -/
theorem partitioned_iff_sum (h : r.Arranged) (hnodup : r.checkers.Nodup) :
    r.Partitioned ↔ (r.checkers.map fun name => (r.ofChecker name).length).sum = r.totalCount := by
  have hkeys : (r.byChecker.map Prod.fst).Perm r.checkers :=
    (List.perm_ext_iff_of_nodup h.nodup_keys hnodup).mpr fun name => (h.mem_checkers name).symm
  have hlists : r.checkers.flatMap r.ofChecker =
      (r.checkers.flatMap r.positionsOf).filterMap (r.diagnostics[·]?) := by
    rw [List.filterMap_flatMap]
    rfl
  have hsubset : r.checkers.flatMap r.positionsOf ⊆ List.range r.diagnostics.length := by
    intro p hp
    obtain ⟨name, -, hp⟩ := List.mem_flatMap.mp hp
    exact List.mem_range.mpr (h.bounded name p hp)
  rw [Partitioned, (hkeys.flatMap_right r.ofChecker).congr_left]
  constructor
  · intro hperm
    rw [totalCount, ← hperm.length_eq, List.length_flatMap]
  · intro hsum
    have hlength : (r.checkers.flatMap r.positionsOf).length = r.diagnostics.length := by
      rw [List.length_flatMap, ← totalCount, ← hsum]
      exact congrArg List.sum (List.map_congr_left fun name _ => (length_ofChecker h name).symm)
    -- positions without repetition, as many as there are, are all positions
    have hall := (List.subperm_of_subset (nodup_flatMap_positionsOf h hnodup) hsubset)
      |>.perm_of_length_le (by rw [List.length_range, hlength])
    have hperm := hall.filterMap (r.diagnostics[·]?)
    rwa [filterMap_range_getElem?, ← hlists] at hperm

/-! ### The summary -/

/-- The text has a line with the number of all diagnostics and one for each checker, with the number
of its own. -/
def SummarizedBy (r : Report) (text : String) : Prop :=
  ∃ lines, List.Forall₂ (fun name line => ∃ time, line = "  " ++ name ++ ": " ++
      toString (r.ofChecker name).length ++ " findings (" ++ time ++ "ms)") r.checkers lines ∧
    text = "\n".intercalate
      (("Checker run complete: " ++ toString r.totalCount ++ " diagnostics") :: lines)

theorem summarizedBy_of_summary (h : r.Arranged) {text : String} (hsummary : r.summary = .ok text) :
    r.SummarizedBy text := by
  obtain ⟨lines, hlines, htext⟩ := Outcome.of_bind_eq_ok hsummary
  cases htext
  refine ⟨lines, ?_, rfl⟩
  -- the names are a list of their own here
  clear hsummary
  generalize r.checkers = names at hlines
  induction names generalizing lines with
  | nil =>
    cases hlines
    exact .nil
  | cons name names ih =>
    rw [List.mapM_cons] at hlines
    obtain ⟨line, hline, hlines⟩ := Outcome.of_bind_eq_ok hlines
    obtain ⟨rest, hrest, hlines⟩ := Outcome.of_bind_eq_ok hlines
    cases hlines
    obtain ⟨time, -, hline⟩ := Outcome.of_bind_eq_ok hline
    cases hline
    refine .cons ⟨time, ?_⟩ (ih rest hrest)
    rw [length_ofChecker h]

end Report

/-! ### Runs -/

namespace Runner

variable {r : Runner} {checkers : Option (List String)}

/-- Checkers that run one after the other each have as many diagnostics to their name as they have
contributed, if no two of them share a name.  Other names keep what they had. -/
theorem length_positionsOf_of_runCheckers {options : Value} {c : Configuration}
    {suppressions : Suppressions} {selected : List Checker}
    (hsame : ∀ a ∈ selected, ∀ b ∈ selected, a.name = b.name → a = b) {stats : Stats}
    {before after : RunResult} {clock : Clock}
    (h : (runCheckers options c suppressions selected stats before clock).1 = .ok after) :
    (∀ checker ∈ selected, (after.report.positionsOf checker.name).length =
        (contribution options c suppressions.covers checker).length) ∧
      (∀ name, name ∉ selected.map (·.name) →
        after.report.positionsOf name = before.report.positionsOf name) ∧
      after.report.checkers = before.report.checkers ++ selected.map (·.name) := by
  induction selected generalizing stats before clock with
  | nil =>
    cases h
    simp
  | cons checker selected ih =>
    obtain ⟨ds, log, milliseconds, clock', hshown, hrest⟩ := exists_pass_of_runCheckers_cons h
    have hds : ds = contribution options c suppressions.covers checker :=
      Pass.eq_contribution ⟨log, hshown⟩
    obtain ⟨hlengths, hothers, hnames⟩ := ih
      (fun a ha b hb => hsame a (List.mem_cons_of_mem _ ha) b (List.mem_cons_of_mem _ hb)) hrest
    refine ⟨?_, ?_, ?_⟩
    · intro checker' hmem
      by_cases hlater : checker'.name ∈ selected.map (·.name)
      · -- the last pass of the checker counts
        obtain ⟨b, hb, hname⟩ := List.mem_map.mp hlater
        obtain rfl := hsame b (List.mem_cons_of_mem _ hb) checker' hmem hname
        exact hlengths b hb
      · rcases List.mem_cons.mp hmem with rfl | hmem
        · rw [hothers _ hlater, Report.positionsOf_addPass, if_pos rfl, List.length_range', hds]
        · exact absurd (List.mem_map_of_mem hmem) hlater
    · intro name hname
      rw [List.map_cons, List.mem_cons, not_or] at hname
      rw [hothers name hname.2, Report.positionsOf_addPass, if_neg hname.1]
    · rw [hnames, List.map_cons, Report.addPass, List.append_assoc, List.singleton_append]

/-- What is known of the report of a run of checkers with given names: each has added as many
diagnostics as it has to its name, as often as it is listed. -/
structure Accounted (names : List String) (report : Report) : Prop extends report.Arranged where
  listed : ∀ name ∈ report.checkers, name ∈ names
  length_eq : report.diagnostics.length =
    (names.map fun name => (report.positionsOf name).length).sum

theorem accounted_empty (names : List String) : Accounted names {} where
  toArranged := Report.arranged_empty
  listed _ hname := absurd hname List.not_mem_nil
  length_eq := by
    show 0 = (names.map fun _ => 0).sum
    simp

/-- **A run over one configuration** accounts for its diagnostics. -/
theorem accounted_of_run (hkeyed : r.registry.Keyed) {c : Configuration} {s : Session}
    {result : RunResult} (h : (r.run c checkers s).1 = .ok result) :
    Accounted ((r.select checkers).1.map (·.name)) result.report := by
  have harranged : result.report.Arranged :=
    run_keeps (P := Report.Arranged)
      (fun report checker ds elapsed stats hreport => hreport.addPass checker ds elapsed stats)
      Report.arranged_empty h
  obtain ⟨passes, hpasses, hall⟩ := passes_of_run h
  rw [run_of_load (load_of_run h)] at h
  obtain ⟨hlengths, -, hnames⟩ :=
    length_positionsOf_of_runCheckers (fun a ha b hb => eq_of_mem_select hkeyed ha hb) h
  refine ⟨harranged, ?_, ?_⟩
  · intro name hname
    rw [hnames] at hname
    exact hname
  · rw [hall, flatten_passes hpasses, List.length_flatMap, List.map_map]
    exact congrArg List.sum (List.map_congr_left fun checker hmem => (hlengths checker hmem).symm)

/-- Joining reports that account for their diagnostics gives one that does. -/
theorem Accounted.append? {names : List String} {report part joined : Report}
    (hreport : Accounted names report) (hpart : Accounted names part)
    (h : report.append? part = .ok joined) : Accounted names joined := by
  refine ⟨hreport.toArranged.append? hpart.toArranged h, ?_, ?_⟩
  · intro name hname
    rw [(Report.byChecker_of_append? h).2, (Report.nodup_and_mem_foldl_names _ _).2] at hname
    rcases hname with hname | hname
    · exact hreport.listed name hname
    · exact hpart.listed name hname
  · have hpositions : ∀ name, (joined.positionsOf name).length =
        (report.positionsOf name).length + (part.positionsOf name).length := by
      intro name
      rw [Report.positionsOf_of_append? hpart.toArranged h, List.length_append, List.length_map]
    rw [(Report.of_append? h).1, List.length_append, hreport.length_eq, hpart.length_eq,
      ← List.sum_map_add]
    exact congrArg List.sum (List.map_congr_left fun name _ => (hpositions name).symm)

/-- **A combined run** accounts for its diagnostics and names each checker once, by induction on the
configurations. -/
theorem accounted_of_runFrom (hkeyed : r.registry.Keyed) {cs : List Configuration}
    {before after : RunResult} {s : Session}
    (hbefore : Accounted ((r.select checkers).1.map (·.name)) before.report)
    (hnodup : before.report.checkers.Nodup)
    (h : (r.runFrom checkers cs before s).1 = .ok after) :
    Accounted ((r.select checkers).1.map (·.name)) after.report ∧
      after.report.checkers.Nodup := by
  induction cs generalizing before s with
  | nil =>
    cases h
    exact ⟨hbefore, hnodup⟩
  | cons c cs ih =>
    obtain ⟨part, joined, hrun, hjoined, hrest⟩ := exists_part_of_runFrom_cons h
    refine ih (hbefore.append? (accounted_of_run hkeyed hrun) hjoined) ?_ hrest
    rw [(Report.byChecker_of_append? hjoined).2]
    exact (Report.nodup_and_mem_foldl_names _ _).1 hnodup

/-- Numbers under names add up to the same, whether each name is taken once or as often as it is
listed, iff those of names that are listed twice are zero. -/
theorem sum_map_eq_sum_map_iff {names listed : List String} {g : String → Nat}
    (hnodup : names.Nodup) (hlisted : ∀ name ∈ names, name ∈ listed)
    (hzero : ∀ name, name ∉ names → g name = 0) :
    (names.map g).sum = (listed.map g).sum ↔ ∀ name, 2 ≤ listed.count name → g name = 0 := by
  have hsubset : names.toFinset ⊆ listed.toFinset := by
    intro name hname
    exact List.mem_toFinset.mpr (hlisted name (List.mem_toFinset.mp hname))
  have honce : (names.map g).sum = ∑ name ∈ listed.toFinset, g name := by
    rw [← List.sum_toFinset g hnodup]
    refine Finset.sum_subset hsubset fun name _ hname => hzero name ?_
    exact fun hmem => hname (List.mem_toFinset.mpr hmem)
  have hle : ∀ name ∈ listed.toFinset, g name ≤ listed.count name • g name := by
    intro name hname
    have hpos := List.count_pos_iff.mpr (List.mem_toFinset.mp hname)
    exact Nat.le_mul_of_pos_left _ hpos
  rw [honce, Finset.sum_list_map_count, Finset.sum_eq_sum_iff_of_le hle]
  constructor
  · intro h name htwo
    have hmem : name ∈ listed.toFinset :=
      List.mem_toFinset.mpr (List.count_pos_iff.mp (by omega))
    have heq := h name hmem
    rw [smul_eq_mul] at heq
    have htwice : 2 * g name ≤ listed.count name * g name := Nat.mul_le_mul_right _ htwo
    omega
  · intro h name hname
    have hpos := List.count_pos_iff.mpr (List.mem_toFinset.mp hname)
    by_cases htwo : 2 ≤ listed.count name
    · rw [h name htwo, smul_zero]
    · have hone : listed.count name = 1 := by omega
      rw [hone, one_smul]

/-- No checker that is listed twice has diagnostics to its name. -/
def TwiceListedEmpty (checkers : Option (List String)) (report : Report) : Prop :=
  ∀ names, checkers = some names → ∀ name, 2 ≤ names.count name → report.ofChecker name = []

theorem twiceListedEmpty_iff (hkeyed : r.registry.Keyed) {report : Report}
    (h : Accounted ((r.select checkers).1.map (·.name)) report) :
    TwiceListedEmpty checkers report ↔
      ∀ name, 2 ≤ ((r.select checkers).1.map (·.name)).count name →
        (report.ofChecker name).length = 0 := by
  constructor
  · intro hempty name htwo
    have hname := List.count_pos_iff.mp (Nat.lt_of_lt_of_le Nat.two_pos htwo)
    obtain ⟨names, hnames, htwice⟩ := (two_le_count_select_iff hkeyed hname).mp htwo
    rw [hempty names hnames name htwice, List.length_nil]
  · rintro hempty names rfl name htwo
    by_cases hname : name ∈ (r.select (some names)).1.map (·.name)
    · exact List.length_eq_zero_iff.mp
        (hempty name ((two_le_count_select_iff hkeyed hname).mpr ⟨names, rfl, htwo⟩))
    · exact Report.ofChecker_eq_nil h.toArranged fun hmem => hname (h.listed name hmem)

/-- The numbers of the diagnostics of all checkers add up iff those of checkers that are listed
twice are zero. -/
theorem Accounted.sum_eq_totalCount_iff {names : List String} {report : Report}
    (h : Accounted names report) (hnodup : report.checkers.Nodup) :
    (report.checkers.map fun name => (report.ofChecker name).length).sum = report.totalCount ↔
      ∀ name, 2 ≤ names.count name → (report.ofChecker name).length = 0 := by
  have htotal : report.totalCount =
      (names.map fun name => (report.ofChecker name).length).sum := by
    rw [Report.totalCount, h.length_eq]
    exact congrArg List.sum
      (List.map_congr_left fun name _ => (Report.length_ofChecker h.toArranged name).symm)
  rw [htotal]
  refine sum_map_eq_sum_map_iff hnodup h.listed fun name hname => ?_
  rw [Report.ofChecker_eq_nil h.toArranged hname, List.length_nil]

/-- **The lists of the checkers make up the report of a combined run**, and the counts in its
summary add up, iff no checker that is listed twice has diagnostics.  In any case the diagnostics of
each checker stand in their order in the report. -/
theorem runAll_partitioned_iff (hmade : r.registry.Made) {cs : List Configuration} {s : Session}
    {result : RunResult} (h : (r.runAll cs checkers s).1 = .ok result) :
    (∀ name, (result.report.ofChecker name).Sublist result.report.diagnostics) ∧
      (result.report.Partitioned ↔ TwiceListedEmpty checkers result.report) ∧
      (∀ text, result.report.summary = .ok text → result.report.SummarizedBy text) ∧
      ((result.report.checkers.map fun name => (result.report.ofChecker name).length).sum =
          result.report.totalCount ↔ TwiceListedEmpty checkers result.report) := by
  obtain ⟨haccounted, hnodup⟩ :=
    accounted_of_runFrom hmade.keyed (accounted_empty _) List.nodup_nil h
  have harranged := haccounted.toArranged
  have hcounts : (result.report.checkers.map fun name => (result.report.ofChecker name).length).sum =
      result.report.totalCount ↔ TwiceListedEmpty checkers result.report := by
    rw [twiceListedEmpty_iff hmade.keyed haccounted]
    exact haccounted.sum_eq_totalCount_iff hnodup
  refine ⟨Report.sublist_ofChecker harranged, ?_,
    fun text htext => Report.summarizedBy_of_summary harranged htext, hcounts⟩
  rw [Report.partitioned_iff_sum harranged hnodup]
  exact hcounts

/-- Over `hushing` and `throwingVector` the checker that is listed twice has nothing to show. -/
theorem runAll_partitioned_iff_sample :
    scriptedRegistry.Made ∧ ∃ result,
      (({ registry := scriptedRegistry } : Runner).runAll [hushing, throwingVector]
        (some ["vector-pessimization", "counting", "vector-pessimization", "nobody"]) {}).1 =
          .ok result ∧
      result.report.Partitioned ∧
      (result.report.checkers.map fun name => (result.report.ofChecker name).length).sum =
        result.report.totalCount ∧
      result.report.checkers = ["vector-pessimization", "counting"] ∧
      result.report.totalCount = 2 := by
  have hmade : scriptedRegistry.Made := .register _ (.register _ (.register _ .empty))
  obtain ⟨result, hresult, hnothing, hnames, htotal⟩ : ∃ result,
      (({ registry := scriptedRegistry } : Runner).runAll [hushing, throwingVector]
        (some ["vector-pessimization", "counting", "vector-pessimization", "nobody"]) {}).1 =
          .ok result ∧
      result.report.positionsOf "vector-pessimization" = [] ∧
      result.report.checkers = ["vector-pessimization", "counting"] ∧
      result.report.totalCount = 2 :=
    ⟨_, rfl, by decide +kernel, by decide +kernel, by decide +kernel⟩
  obtain ⟨-, hpartitioned, -, hcounts⟩ := runAll_partitioned_iff hmade hresult
  have hempty : TwiceListedEmpty
      (some ["vector-pessimization", "counting", "vector-pessimization", "nobody"])
      result.report := by
    rintro _ ⟨⟩ name htwo
    have hmem := List.count_pos_iff.mp (Nat.lt_of_lt_of_le Nat.two_pos htwo)
    simp only [List.mem_cons, List.not_mem_nil, or_false] at hmem
    rcases hmem with rfl | rfl | rfl | rfl
    · rw [Report.ofChecker, hnothing, List.filterMap_nil]
    · exact absurd htwo (by decide)
    · rw [Report.ofChecker, hnothing, List.filterMap_nil]
    · exact absurd htwo (by decide)
  exact ⟨hmade, result, hresult, hpartitioned.mpr hempty, hcounts.mpr hempty, hnames, htotal⟩

/-- A checker that is listed twice passes twice: two diagnostics are in the report, and one of them
is in the list of its checker. -/
theorem twice_listed_unpartitioned :
    ∃ result,
      (({ registry := scriptedRegistry } : Runner).runAll [{}] (some ["counting", "counting"])
        {}).1 = .ok result ∧
      result.report.totalCount = 2 ∧
      (result.report.ofChecker "counting").length = 1 ∧
      ¬ result.report.Partitioned ∧
      (result.report.checkers.map fun name => (result.report.ofChecker name).length).sum ≠
        result.report.totalCount := by
  refine ⟨_, rfl, by decide +kernel, by decide +kernel, ?_, by decide +kernel⟩
  intro hperm
  have hlength := hperm.length_eq
  revert hlength
  decide +kernel

end Runner

end GrowthAudit
