import GrowthAudit.Proofs.Run.Endings
import Mathlib.Algebra.Order.BigOperators.Group.List
import Mathlib.Algebra.Order.Ring.Nat

/-!
# The order of configurations

What a configuration suppresses is hidden from the configurations behind it, and not from those in
front.  So the order of the configurations of a combined run matters, as soon as one of them
suppresses what is produced for another one.  This file says that it matters in no other way.

* `Runner.Spares`: a configuration suppresses nothing of another one that is not suppressed anyway.
* `Runner.OrderFree`: runs in all orders report the same diagnostics, each equally often.
* `Runner.reported_perm`: if all configurations spare each other, then the order does not matter.
* `Runner.count_contributions`, `Runner.count_contributions_lt`: how often a diagnostic is reported,
  and that it is reported less often where it is hidden.
* `Runner.runAll_order`: the order does not matter iff all configurations spare each other, and runs
  of standard checkers end alike in all orders.
* `Runner.order_matters_sample`: two configurations whose order matters.
-/

namespace GrowthAudit

namespace Runner

variable {r : Runner} {checkers : Option (List String)} {start : Suppressions}
  {cs cs' : List Configuration}

/-- Whatever of `c` is suppressed by `c'`, is suppressed from the start or by `c` itself. -/
def Spares (r : Runner) (checkers : Option (List String)) (start : Suppressions)
    (c' c : Configuration) : Prop :=
  ∀ checker ∈ (r.select checkers).1, ∀ d ∈ produced r.options c checker,
    c'.suppresses d = true → start.covers d = true ∨ c.suppresses d = true

/-- A run over the configurations, and a run over the same ones in another order, report the same
diagnostics, each equally often. -/
def OrderFree (r : Runner) (checkers : Option (List String)) (start : Suppressions)
    (cs : List Configuration) : Prop :=
  ∀ cs', cs.Perm cs' → ∀ clock clock' result result',
    (r.runAll cs checkers ⟨start, clock⟩).1 = .ok result →
    (r.runAll cs' checkers ⟨start, clock'⟩).1 = .ok result' →
    result.report.diagnostics.Perm result'.report.diagnostics

/-! ### Configurations that spare each other -/

/-- Where no other configuration hides anything, each position reports what its configuration
reports alone. -/
theorem reported_eq_flatMap (h : ∀ c ∈ cs, ∀ c' ∈ cs, r.Spares checkers start c' c) :
    r.reported checkers start.covers cs =
      cs.flatMap fun c => r.contributions checkers c fun d => start.covers d || c.suppresses d := by
  rw [reported_eq]
  conv_rhs => rw [← List.zipIdx_map_fst 0 cs, List.flatMap_map]
  refine List.flatMap_congr fun ⟨c, i⟩ hmem => ?_
  rw [List.mem_zipIdx_iff_getElem?] at hmem
  have hself : c ∈ cs.take (i + 1) := by
    rw [← List.getElem?_take_of_lt (Nat.lt_succ_self i)] at hmem
    exact List.mem_of_getElem? hmem
  refine List.flatMap_congr fun checker hchecker => contribution_congr fun d hd => ?_
  rw [Bool.eq_iff_iff]
  simp only [Bool.or_eq_true, List.any_eq_true]
  constructor
  · rintro (hstart | ⟨c', hc', hsuppresses⟩)
    · exact .inl hstart
    · exact h c (List.mem_of_getElem? hmem) c' (List.mem_of_mem_take hc') checker hchecker d hd
        hsuppresses
  · rintro (hstart | hsuppresses)
    · exact .inl hstart
    · exact .inr ⟨c, hself, hsuppresses⟩

theorem reported_perm (h : ∀ c ∈ cs, ∀ c' ∈ cs, r.Spares checkers start c' c)
    (hperm : cs.Perm cs') :
    (r.reported checkers start.covers cs).Perm (r.reported checkers start.covers cs') := by
  have h' : ∀ c ∈ cs', ∀ c' ∈ cs', r.Spares checkers start c' c := fun c hc c' hc' =>
    h c (hperm.mem_iff.mpr hc) c' (hperm.mem_iff.mpr hc')
  rw [reported_eq_flatMap h, reported_eq_flatMap h']
  exact hperm.flatMap_right _

/-! ### How often a diagnostic is reported -/

/-- A diagnostic that is hidden is counted among the complaints only. -/
theorem count_contributions (c : Configuration) (hidden : Diagnostic → Bool) (d : Diagnostic) :
    (r.contributions checkers c hidden).count d =
      ((r.select checkers).1.map fun checker =>
        (if hidden d then 0 else (produced r.options c checker).count d) +
          (complaint r.options c checker).count d).sum := by
  rw [contributions, List.count_flatMap]
  refine congrArg List.sum (List.map_congr_left fun checker _ => ?_)
  rw [Function.comp_apply, contribution, List.count_append]
  by_cases hd : hidden d = true
  · have hnone : d ∉ (produced r.options c checker).filter (!hidden ·) := by
      simp [hd]
    rw [List.count_eq_zero_of_not_mem hnone, if_pos hd]
  · rw [List.count_filter (by simpa using hd), if_neg hd]

theorem count_contributions_congr {c : Configuration} {hidden hidden' : Diagnostic → Bool}
    {d : Diagnostic} (h : hidden d = hidden' d) :
    (r.contributions checkers c hidden).count d = (r.contributions checkers c hidden').count d := by
  rw [count_contributions, count_contributions, h]

/-- Hiding a diagnostic that is produced makes it rarer. -/
theorem count_contributions_lt {c : Configuration} {hidden hidden' : Diagnostic → Bool}
    {checker : Checker} {d : Diagnostic} (hchecker : checker ∈ (r.select checkers).1)
    (hd : d ∈ produced r.options c checker) (hshown : hidden d = false)
    (hhidden : hidden' d = true) :
    (r.contributions checkers c hidden').count d < (r.contributions checkers c hidden).count d := by
  rw [count_contributions, count_contributions, hshown, hhidden]
  have hpos := List.count_pos_iff.mpr hd
  refine List.sum_lt_sum _ _ (fun _ _ => ?_) ⟨checker, hchecker, ?_⟩
  · simp
  · simpa using hpos

/-- A configuration that suppresses a diagnostic of another one makes a difference, depending on
which of the two comes first. -/
theorem not_perm_of_suppresses {c c' : Configuration} {checker : Checker} {d : Diagnostic}
    (hchecker : checker ∈ (r.select checkers).1) (hd : d ∈ produced r.options c checker)
    (hsuppresses : c'.suppresses d = true) (hstart : start.covers d = false)
    (hc : c.suppresses d = false) (rest : List Configuration) :
    ¬ (r.reported checkers start.covers (c :: c' :: rest)).Perm
      (r.reported checkers start.covers (c' :: c :: rest)) := by
  intro hperm
  have hcount := hperm.count_eq d
  -- both orders hide the same from the rest
  have hrest : (fun d => start.covers d || c'.suppresses d || c.suppresses d) =
      fun d => start.covers d || c.suppresses d || c'.suppresses d :=
    funext fun _ => Bool.or_right_comm _ _ _
  simp only [reported, hrest, List.count_append] at hcount
  -- the second configuration hides the diagnostic from itself in both orders
  have hsame : (r.contributions checkers c'
        fun d => start.covers d || c.suppresses d || c'.suppresses d).count d =
      (r.contributions checkers c' fun d => start.covers d || c'.suppresses d).count d :=
    count_contributions_congr (by simp [hsuppresses])
  have hless : (r.contributions checkers c
        fun d => start.covers d || c.suppresses d || c'.suppresses d).count d <
      (r.contributions checkers c fun d => start.covers d || c.suppresses d).count d :=
    count_contributions_lt hchecker hd (by simp [hstart, hc]) (by simp [hsuppresses])
  omega

/-! ### The order of a combined run -/

theorem exists_perm_cons_cons {c c' : Configuration} (hc : c ∈ cs) (hc' : c' ∈ cs) (hne : c' ≠ c) :
    ∃ rest, cs.Perm (c :: c' :: rest) := by
  classical
  have hmem : c' ∈ cs.erase c := (List.mem_erase_of_ne hne).mpr hc'
  exact ⟨_, (List.perm_cons_erase hc).trans ((List.perm_cons_erase hmem).cons c)⟩

/-- **The order of configurations matters through suppressions only.**  If all configurations spare
each other, then runs in all orders report the same; and if runs in all orders come to an end and
report the same, then all configurations spare each other.  Whether a run of standard checkers over
readable configurations comes to an end does not depend on their order. -/
theorem runAll_order (r : Runner) (checkers : Option (List String)) (start : Suppressions)
    (cs : List Configuration) :
    ((∀ c ∈ cs, ∀ c' ∈ cs, r.Spares checkers start c' c) → r.OrderFree checkers start cs) ∧
      ((∀ cs', cs.Perm cs' → ∃ clock result,
          (r.runAll cs' checkers ⟨start, clock⟩).1 = .ok result) →
        r.OrderFree checkers start cs → ∀ c ∈ cs, ∀ c' ∈ cs, r.Spares checkers start c' c) ∧
      ((∀ checker ∈ (r.select checkers).1, checker.Standard) → (∀ c ∈ cs, c.Readable) →
        ∀ cs', cs.Perm cs' → ∀ clock, Outcome.Alike (fun _ _ => True)
          (r.runAll cs checkers ⟨start, clock⟩).1 (r.runAll cs' checkers ⟨start, clock⟩).1) := by
  refine ⟨?_, ?_, ?_⟩
  · intro h cs' hperm clock clock' result result' hrun hrun'
    rw [reported_of_runAll hrun, reported_of_runAll hrun']
    exact reported_perm h hperm
  · intro hends horder c hc c' hc' checker hchecker d hd hsuppresses
    by_contra hspared
    rw [not_or, Bool.not_eq_true, Bool.not_eq_true] at hspared
    have hne : c' ≠ c := by
      rintro rfl
      rw [hsuppresses] at hspared
      exact absurd hspared.2 (by decide)
    obtain ⟨rest, hperm⟩ := exists_perm_cons_cons hc hc' hne
    have hperm' : cs.Perm (c' :: c :: rest) := hperm.trans (.swap c' c rest)
    obtain ⟨clock, result, hrun⟩ := hends cs (.refl cs)
    obtain ⟨clock₁, result₁, hrun₁⟩ := hends _ hperm
    obtain ⟨clock₂, result₂, hrun₂⟩ := hends _ hperm'
    have hsame := (horder _ hperm _ _ _ _ hrun hrun₁).symm.trans
      (horder _ hperm' _ _ _ _ hrun hrun₂)
    rw [reported_of_runAll hrun₁, reported_of_runAll hrun₂] at hsame
    exact not_perm_of_suppresses hchecker hd hsuppresses hspared.1 hspared.2 rest hsame
  · intro hstandard hreadable cs' hperm clock
    exact runAll_endsAlike hstandard hperm.length_eq hreadable
      (fun c hc => hreadable c (hperm.mem_iff.mpr hc)) rfl

/-- A configuration that suppresses everything in a file of its own. -/
def hushingElsewhere : Configuration where
  suppressions := [{ id := "*", file := "elsewhere.cpp" }]

/-- `hushingElsewhere` spares `throwingVector`, whose finding is reported in both orders. -/
theorem runAll_order_sample :
    (∀ c ∈ [throwingVector, hushingElsewhere], ∀ c' ∈ [throwingVector, hushingElsewhere],
      ({} : Runner).Spares none {} c' c) ∧
      (∀ checker ∈ (({} : Runner).select none).1, checker.Standard) ∧
      (∀ c ∈ [throwingVector, hushingElsewhere], c.Readable) ∧
      Outcome.Alike (fun _ _ => True)
        (({} : Runner).runAll [throwingVector, hushingElsewhere] none {}).1
        (({} : Runner).runAll [hushingElsewhere, throwingVector] none {}).1 ∧
      ∃ result result',
        (({} : Runner).runAll [throwingVector, hushingElsewhere] none {}).1 = .ok result ∧
        (({} : Runner).runAll [hushingElsewhere, throwingVector] none {}).1 = .ok result' ∧
        result.report.diagnostics.Perm result'.report.diagnostics ∧
        result.report.diagnostics.map (·.id) = ["vectorPessimization"] := by
  obtain ⟨hsame, -, hends⟩ := runAll_order {} none {} [throwingVector, hushingElsewhere]
  have hspare : ∀ c ∈ [throwingVector, hushingElsewhere],
      ∀ c' ∈ [throwingVector, hushingElsewhere], ({} : Runner).Spares none {} c' c := by
    simp only [Spares]
    decide +kernel
  have hstandard : ∀ checker ∈ (({} : Runner).select none).1, checker.Standard :=
    fun _ => Registry.standard_standard.of_mem_select
  have hreadable : ∀ c ∈ [throwingVector, hushingElsewhere], c.Readable :=
    List.forall_mem_cons.mpr ⟨(throwingVector.readable_iff {}).mpr rfl,
      List.forall_mem_singleton.mpr ((hushingElsewhere.readable_iff {}).mpr rfl)⟩
  refine ⟨hspare, hstandard, hreadable, hends hstandard hreadable _ (.swap _ _ _) {}, _, _, rfl, rfl,
    ?_, ?_⟩
  · exact hsame hspare _ (.swap _ _ _) {} {} _ _ rfl rfl
  · decide +kernel

/-- Behind `hushing` the finding of `throwingVector` is suppressed, and in front of it, it is
reported. -/
theorem order_matters_sample :
    (∀ c ∈ [throwingVector, hushing], c.Readable) ∧
      (∃ result result',
        (({} : Runner).runAll [throwingVector, hushing] none {}).1 = .ok result ∧
        (({} : Runner).runAll [hushing, throwingVector] none {}).1 = .ok result' ∧
        result.report.diagnostics.map (·.id) = ["vectorPessimization"] ∧
        result'.report.diagnostics = []) ∧
      ¬ ({} : Runner).OrderFree none {} [throwingVector, hushing] := by
  have hruns : ∃ result result',
      (({} : Runner).runAll [throwingVector, hushing] none {}).1 = .ok result ∧
      (({} : Runner).runAll [hushing, throwingVector] none {}).1 = .ok result' ∧
      result.report.diagnostics.map (·.id) = ["vectorPessimization"] ∧
      result'.report.diagnostics = [] := by
    refine ⟨_, _, rfl, rfl, ?_, ?_⟩
    · decide +kernel
    · decide +kernel
  refine ⟨?_, hruns, fun horder => ?_⟩
  · exact List.forall_mem_cons.mpr ⟨(throwingVector.readable_iff {}).mpr rfl,
      List.forall_mem_singleton.mpr ((hushing.readable_iff {}).mpr rfl)⟩
  · obtain ⟨result, result', hrun, hrun', hids, hnone⟩ := hruns
    have hperm := horder _ (.swap _ _ _) {} {} _ _ hrun hrun'
    rw [hnone, List.perm_nil] at hperm
    rw [hperm] at hids
    cases hids

end Runner

end GrowthAudit
