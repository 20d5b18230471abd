import GrowthAudit.Proofs.CppType.Explanation

/-!
# Explanations without a limit

A type is a finite tree, so a walk along first causes comes to an end by itself.  The depth at which
an explanation ends only cuts this walk: what is left is its beginning, never empty unless the walk
is, and how much is left depends on the distance between the two depths alone.

* `CppType.Chain`: the whole walk, which ends only where there is no cause or nothing to go on with.
  Every type has one (`CppType.exists_chain`).
* `CppType.explain_of_blamed`: an explanation goes on in the blamed type, one deeper, unless it has
  come to its last depth.
* `CppType.Chain.explain_eq_take`: what an explanation keeps of the whole walk, by induction on the
  walk, for every depth to start at.
* `CppType.explain_truncates`: the whole walk is what explanations with enough room have in common,
  and every other one is a beginning of it.
-/

namespace GrowthAudit

/-- What a record blames other than itself is the type of one of its members or bases. -/
theorem Record.Blames.exists_part {r : Record CppType} {b : Blamed} (h : r.Blames b) {u : CppType}
    (hu : b.type? = some u) : (∃ f ∈ r.fields, f.type = u) ∨ ∃ b ∈ r.bases, b.type = u := by
  cases b with
  | ctor name location => cases hu
  | field name location type =>
    obtain ⟨before, f, after, hfields, -, -, rfl, -⟩ := h
    obtain rfl := Option.some.inj hu
    exact Or.inl ⟨f, by simp [hfields], rfl⟩
  | base location type =>
    obtain ⟨-, before, b, after, hbases, -, rfl, -⟩ := h
    obtain rfl := Option.some.inj hu
    exact Or.inr ⟨b, by simp [hbases], rfl⟩

namespace CppType

variable {t u : CppType} {step : CauseStep} {steps : List CauseStep}

/-! ### One step of an explanation -/

theorem explain_of_none (h : t.cause? = none) (d m : Int) : t.explain d m = [] := by
  rw [explain, trace_eq_nil_iff]
  exact h

theorem explain_of_last (h : t.cause? = some step) (hu : step.blamed.type? = none) (d m : Int) :
    t.explain d m = [step] := by
  rw [explain]
  cases (m - d).toNat with
  | zero => rw [trace, h, Option.toList_some]
  | succ further =>
    rw [trace]
    simp only [h, hu, Option.map_none, Option.getD_none]

/-- The record at the last depth still names its cause; any other one is followed by the explanation
of the type that it blames. -/
theorem explain_of_blamed (h : t.cause? = some step) (hu : step.blamed.type? = some u) (d m : Int) :
    t.explain d m = if m ≤ d then [step] else step :: u.explain (d + 1) m := by
  by_cases hle : m ≤ d
  · have hzero : (m - d).toNat = 0 := by omega
    rw [if_pos hle, explain, hzero, trace, h, Option.toList_some]
  · have hsucc : (m - d).toNat = (m - (d + 1)).toNat + 1 := by omega
    rw [if_neg hle, explain, hsucc, trace]
    simp only [h, hu, Option.map_some, Option.getD_some]
    rfl

/-! ### The whole walk -/

/-- The walk along first causes from a type, as far as it goes. -/
inductive Chain : CppType → List CauseStep → Prop
  | nil {t : CppType} : t.cause? = none → Chain t []
  | last {t : CppType} {step : CauseStep} : t.cause? = some step → step.blamed.type? = none →
      Chain t [step]
  | cons {t u : CppType} {step : CauseStep} {steps : List CauseStep} : t.cause? = some step →
      step.blamed.type? = some u → Chain u steps → Chain t (step :: steps)

theorem exists_chain (t : CppType) : ∃ steps, t.Chain steps := by
  induction t using inductionOn with
  | step name kind definition ih =>
    cases hcause : (mk name kind definition).cause? with
    | none => exact ⟨[], .nil hcause⟩
    | some step =>
      cases hu : step.blamed.type? with
      | none => exact ⟨[step], .last hcause hu⟩
      | some u =>
        obtain ⟨r, hr, -, hblames⟩ := exists_blames_of_cause? hcause
        obtain ⟨hfields, hbases⟩ := ih r hr
        obtain ⟨steps, hsteps⟩ : ∃ steps, u.Chain steps := by
          rcases hblames.exists_part hu with ⟨f, hf, rfl⟩ | ⟨b, hb, rfl⟩
          · exact hfields f hf
          · exact hbases b hb
        exact ⟨step :: steps, .cons hcause hu hsteps⟩

/-- **An explanation is a beginning of the whole walk.**  However deep the type itself stands, the
record at the last depth still names its cause. -/
theorem Chain.explain_eq_take (h : t.Chain steps) (d m : Int) :
    t.explain d m = steps.take (max 1 (m - d + 1)).toNat := by
  induction h generalizing d with
  | nil hcause => rw [explain_of_none hcause, List.take_nil]
  | @last t step hcause hu =>
    have hroom : [step].length ≤ (max 1 (m - d + 1)).toNat := by
      rw [List.length_singleton]
      omega
    rw [explain_of_last hcause hu, List.take_of_length_le hroom]
  | @cons t u step steps hcause hu _ ih =>
    rw [explain_of_blamed hcause hu, ih]
    by_cases hle : m ≤ d
    · have hone : (max 1 (m - d + 1)).toNat = 1 := by omega
      rw [if_pos hle, hone, List.take_succ_cons, List.take_zero]
    · have hsucc : (max 1 (m - d + 1)).toNat = (max 1 (m - (d + 1) + 1)).toNat + 1 := by omega
      rw [if_neg hle, hsucc, List.take_succ_cons]

/-- With as much room as the walk has steps, all of it is left. -/
theorem Chain.explain_eq (h : t.Chain steps) {m : Int} (hm : steps.length ≤ m) :
    t.explain 1 m = steps := by
  rw [h.explain_eq_take, List.take_of_length_le]
  omega

/-- **The last depth only cuts.**  There is one explanation that all those with enough room share,
and every other one is a beginning of it, whose length depends on the distance of the depths. -/
theorem explain_truncates (t : CppType) :
    ∃ steps, t.Chain steps ∧ (∃ n, ∀ m ≥ n, t.explain 1 m = steps) ∧
      (∀ d m, t.explain d m = steps.take (max 1 (m - d + 1)).toNat) ∧
      (∀ d m d' m', m - d = m' - d' → t.explain d m = t.explain d' m') ∧
      ∀ d m d' m', m - d ≤ m' - d' → t.explain d m <+: t.explain d' m' := by
  obtain ⟨steps, hsteps⟩ := exists_chain t
  refine ⟨steps, hsteps, ⟨steps.length, fun m hm => hsteps.explain_eq hm⟩,
    hsteps.explain_eq_take, ?_, ?_⟩
  · intro d m d' m' heq
    rw [hsteps.explain_eq_take, hsteps.explain_eq_take, heq]
  · intro d m d' m' hle
    rw [hsteps.explain_eq_take, hsteps.explain_eq_take]
    exact List.take_prefix_take_left (by omega)

/-- A type that stands too deep still has its first cause explained, and two steps of explanation
are the same two steps at any depth. -/
theorem explain_truncates_sample :
    (nestedSample.explain 4 (-2)).map (·.blamed.name) = ["m"] ∧
      (nestedSample.explain 3 4).map (·.blamed.name) = ["m", "Inner"] ∧
      nestedSample.explain 3 4 = nestedSample.explain 1 2 ∧
      nestedSample.explain 4 (-2) <+: nestedSample.explain 3 4 := by
  obtain ⟨steps, -, -, -, hdistance, hbeginning⟩ := explain_truncates nestedSample
  exact ⟨by decide, by decide, hdistance 3 4 1 2 (by decide), hbeginning 4 (-2) 3 4 (by decide)⟩

end CppType

end GrowthAudit
