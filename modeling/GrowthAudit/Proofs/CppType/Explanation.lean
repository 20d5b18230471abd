import GrowthAudit.Proofs.CppType.Blame

/-!
# What an explanation says

An explanation is a walk: it starts at the type that is explained, each step is what the definition
of the type at hand blames first, and the walk goes on in the blamed type.

* `Record.Blames`: what is known of a record and what it blames first, with respect to the order of
  declaration (`Record.blames_of_firstCause?`).
* `CppType.subject?`: the type that a step of an explanation is about.
* `CppType.Explained`: what is to be expected of an explanation with at most so many steps.  It says
  how the steps are linked, and that an explanation which is shorter than allowed could not go on.
* `CppType.explained_explain`: every explanation of a degrading type is like this, by induction on
  the steps that are left.
* `CppType.explain_prefix_of_le`: an explanation that may go further starts with the shorter one.
-/

namespace GrowthAudit

namespace Record

variable {r : Record CppType}

/-- The record blames the first entity that it can: its throwing move constructor, or else the first
own member that degrades, or else the first base that degrades and is not virtual. -/
def Blames (r : Record CppType) : Blamed → Prop
  | .ctor name location => ∃ c ∈ r.ctors, c.isMove = true ∧ c.isUserProvided = true ∧
      c.throwing (some r) = .yes ∧ name = (if c.name = "" then r.name else c.name) ∧
      location = c.location
  | .field name location type => ∃ before f after, r.fields = before ++ f :: after ∧
      name = f.name ∧ location = f.location ∧ type = f.type ∧
      f.isOwn = true ∧ f.type.degrades = true ∧
      ∀ g ∈ before, g.isOwn = true → g.type.degrades = false
  | .base location type => (∀ f ∈ r.fields, f.isOwn = true → f.type.degrades = false) ∧
      ∃ before b after, r.bases = before ++ b :: after ∧
        location = b.location ∧ type = b.type ∧
        b.isVirtual = false ∧ b.type.degrades = true ∧
        ∀ b' ∈ before, b'.isVirtual = false → b'.type.degrades = false

theorem blames_of_throwingUserMove? {c : Ctor} (h : r.throwingUserMove? = some c) :
    r.Blames (.ctor (if c.name = "" then r.name else c.name) c.location) := by
  obtain ⟨hfind, hyes⟩ := Option.filter_eq_some_iff.mp h
  have hfound := List.find?_some hfind
  rw [Bool.and_eq_true] at hfound
  exact ⟨c, List.mem_of_find?_eq_some hfind, hfound.1, hfound.2, eq_of_beq hyes, rfl, rfl⟩

theorem blames_of_degradingField? {f : Field CppType} (h : r.degradingField? = some f) :
    r.Blames (.field f.name f.location f.type) := by
  obtain ⟨hfound, before, after, hfields, hbefore⟩ := List.find?_eq_some_iff_append.mp h
  rw [Bool.and_eq_true] at hfound
  refine ⟨before, f, after, hfields, rfl, rfl, rfl, hfound.1, hfound.2, ?_⟩
  intro g hg hown
  simpa [hown] using hbefore g hg

theorem blames_of_degradingBase? {b : Base CppType} (hfield : r.degradingField? = none)
    (h : r.degradingBase? = some b) : r.Blames (.base b.location b.type) := by
  obtain ⟨hfound, before, after, hbases, hbefore⟩ := List.find?_eq_some_iff_append.mp h
  rw [Bool.and_eq_true, Bool.not_eq_true'] at hfound
  refine ⟨degradingField?_eq_none_iff.mp hfield, before, b, after, hbases, rfl, rfl, hfound.1,
    hfound.2, ?_⟩
  intro b' hb' hvirtual
  simpa [hvirtual] using hbefore b' hb'

/-- **What a record blames first comes first.** -/
theorem blames_of_firstCause? {step : CauseStep} (h : r.firstCause? = some step) :
    r.Blames step.blamed := by
  rw [firstCause?_eq, Option.map_eq_some_iff] at h
  obtain ⟨s, hs, rfl⟩ := h
  rw [suspect?_eq_some_iff] at hs
  cases s with
  | ctor c => exact blames_of_throwingUserMove? hs
  | field f => exact blames_of_degradingField? hs.2
  | base b => exact blames_of_degradingBase? hs.2.1 hs.2.2

theorem Blames.degrades {b : Blamed} (h : r.Blames b) {t : CppType} (ht : b.type? = some t) :
    t.degrades = true := by
  cases b with
  | ctor name location => cases ht
  | field name location type =>
    obtain ⟨before, f, after, -, -, -, rfl, -, hdeg, -⟩ := h
    exact Option.some.inj ht ▸ hdeg
  | base location type =>
    obtain ⟨-, before, b, after, -, -, rfl, -, hdeg, -⟩ := h
    exact Option.some.inj ht ▸ hdeg

end Record

theorem Blamed.type?_eq_none_iff {b : Blamed} :
    b.type? = none ↔ ∃ name location, b = .ctor name location := by
  cases b <;> simp [type?]

namespace CppType

variable {t u : CppType} {m : Int} {step : CauseStep} {steps : List CauseStep}

/-! ### Walks along first causes -/

/-- The type that a step of an explanation is about: the explained type for the first one, and for
any other one the type that the step before blames. -/
def subject? (t : CppType) (steps : List CauseStep) : Nat → Option CppType
  | 0 => some t
  | i + 1 => steps[i]?.bind (·.blamed.type?)

/-- What is to be expected of an explanation of at most `m` steps. -/
structure Explained (t : CppType) (m : Int) (steps : List CauseStep) : Prop where
  length_le : steps.length ≤ m
  /-- Each step is the first cause of the definition of its subject. -/
  linked : ∀ i step, steps[i]? = some step → ∃ u r, t.subject? steps i = some u ∧
    u.definition = some r ∧ r.firstCause? = some step ∧ r.Blames step.blamed
  blamed_degrades : ∀ step ∈ steps, ∀ u, step.blamed.type? = some u → u.degrades = true
  ctor_last : ∀ i step, steps[i]? = some step →
    (∃ name location, step.blamed = .ctor name location) → i + 1 = steps.length
  /-- An explanation that is shorter than allowed ends with a constructor, or its next subject has a
  definition without a cause. -/
  ended : steps.length < m →
    (∃ step name location, steps.getLast? = some step ∧ step.blamed = .ctor name location) ∨
      ∃ u r, t.subject? steps steps.length = some u ∧ u.definition = some r ∧
        r.firstCause? = none

theorem subject?_cons_succ (hu : step.blamed.type? = some u) (i : Nat) :
    t.subject? (step :: steps) (i + 1) = u.subject? steps i := by
  cases i with
  | zero => exact hu
  | succ i => rfl

theorem exists_blames_of_cause? (h : t.cause? = some step) :
    ∃ r, t.definition = some r ∧ r.firstCause? = some step ∧ r.Blames step.blamed := by
  obtain ⟨r, hr, hcause⟩ := Option.bind_eq_some_iff.mp h
  exact ⟨r, hr, hcause, Record.blames_of_firstCause? hcause⟩

theorem degrades_of_cause? (h : t.cause? = some step) (hu : step.blamed.type? = some u) :
    u.degrades = true := by
  obtain ⟨r, -, -, hblames⟩ := exists_blames_of_cause? h
  exact hblames.degrades hu

/-- A walk that cannot even start. -/
theorem Explained.nil (ht : t.degrades = true) (h : t.cause? = none) (hm : 0 ≤ m) :
    t.Explained m [] where
  length_le := hm
  linked := by
    intro i step hi
    cases hi
  blamed_degrades := by
    intro step hstep
    cases hstep
  ctor_last := by
    intro i step hi
    cases hi
  ended := by
    intro _
    obtain ⟨-, r, hr, -⟩ := degrades_iff.mp ht
    rw [cause?, hr, Option.bind_some] at h
    exact Or.inr ⟨t, r, rfl, hr, h⟩

/-- A walk of one step, which may not go on or has come to a constructor. -/
theorem Explained.singleton (h : t.cause? = some step)
    (hm : m = 1 ∨ 1 ≤ m ∧ ∃ name location, step.blamed = .ctor name location) :
    t.Explained m [step] where
  length_le := by
    show ((1 : Nat) : Int) ≤ m
    omega
  linked := by
    intro i step' hi
    cases i with
    | zero =>
      obtain rfl : step = step' := Option.some.inj hi
      obtain ⟨r, hr⟩ := exists_blames_of_cause? h
      exact ⟨t, r, rfl, hr⟩
    | succ i => cases hi
  blamed_degrades := by
    intro step' hstep' u hu
    obtain rfl := List.mem_singleton.mp hstep'
    exact degrades_of_cause? h hu
  ctor_last := by
    intro i step' hi _
    cases i with
    | zero => rfl
    | succ i => cases hi
  ended := by
    intro hlt
    rcases hm with rfl | ⟨-, name, location, hctor⟩
    · exact absurd hlt (Int.lt_irrefl 1)
    · exact Or.inl ⟨step, name, location, rfl, hctor⟩

/-- One step in front of a walk from the blamed type. -/
theorem Explained.cons (h : t.cause? = some step) (hu : step.blamed.type? = some u)
    (hsteps : u.Explained m steps) : t.Explained (m + 1) (step :: steps) where
  length_le := by
    have hle := hsteps.length_le
    rw [List.length_cons]
    omega
  linked := by
    intro i step' hi
    cases i with
    | zero =>
      obtain rfl : step = step' := Option.some.inj hi
      obtain ⟨r, hr⟩ := exists_blames_of_cause? h
      exact ⟨t, r, rfl, hr⟩
    | succ i =>
      rw [subject?_cons_succ hu]
      exact hsteps.linked i step' hi
  blamed_degrades := by
    intro step' hstep'
    rcases List.mem_cons.mp hstep' with rfl | hmem
    · exact fun v hv => degrades_of_cause? h hv
    · exact hsteps.blamed_degrades step' hmem
  ctor_last := by
    intro i step' hi hctor
    cases i with
    | zero =>
      obtain rfl : step = step' := Option.some.inj hi
      obtain ⟨name, location, hctor⟩ := hctor
      rw [hctor] at hu
      cases hu
    | succ i =>
      have hlast := hsteps.ctor_last i step' hi hctor
      rw [List.length_cons, hlast]
  ended := by
    intro hlt
    rw [List.length_cons] at hlt
    rw [List.length_cons, subject?_cons_succ hu]
    refine (hsteps.ended (by omega)).imp_left ?_
    rintro ⟨last, name, location, hlast, hctor⟩
    refine ⟨last, name, location, ?_, hctor⟩
    cases steps with
    | nil => cases hlast
    | cons step' steps => rwa [List.getLast?_cons_cons]

theorem explained_trace (further : Nat) (ht : t.degrades = true) :
    t.Explained (further + 1) (t.trace further) := by
  induction further generalizing t with
  | zero =>
    rw [trace]
    cases hcause : t.cause? with
    | none => exact .nil ht hcause (by omega)
    | some step => exact .singleton hcause (Or.inl rfl)
  | succ further ih =>
    rw [trace, Int.natCast_succ]
    cases hcause : t.cause? with
    | none => exact .nil ht hcause (by omega)
    | some step =>
      cases hu : step.blamed.type? with
      | none =>
        have hroom : 1 ≤ (further : Int) + 1 + 1 := by omega
        simp only [hu, Option.map_none, Option.getD_none]
        exact .singleton hcause (Or.inr ⟨hroom, Blamed.type?_eq_none_iff.mp hu⟩)
      | some u =>
        have hsteps := ih (degrades_of_cause? hcause hu)
        simp only [hu, Option.map_some, Option.getD_some]
        exact .cons hcause hu hsteps

/-- **Every explanation of a degrading type is a walk along first causes**, which ends early only
where it cannot go on. -/
theorem explained_explain {t : CppType} (ht : t.degrades = true) {m : Int} (hm : 1 ≤ m) :
    t.Explained m (t.explain 1 m) := by
  have hfurther : (((m - 1).toNat : Nat) : Int) + 1 = m := by omega
  have hsteps := explained_trace (m - 1).toNat ht
  rwa [hfurther] at hsteps

/-- `struct Inner { Inner(Inner&&); }; struct Middle : Inner { }; struct Outer { int n; Middle m;
};`
-/
def nestedSample : CppType :=
  let inner := complete { name := "Inner", ctors := [{ isMove := true, isUserProvided := true }] }
  let middle := complete
    { name := "Middle", ctors := [Record.impliedMove], bases := [{ type := inner }] }
  complete
    { name := "Outer", ctors := [Record.impliedMove]
      fields := [{ name := "n", type := builtin "int" }, { name := "m", type := middle }] }

/-- With room for two steps the explanation ends before the constructor, and with room for more it
ends with it. -/
theorem explained_explain_sample :
    nestedSample.degrades = true ∧
      (nestedSample.explain 1 2).map (·.blamed.name) = ["m", "Inner"] ∧
      nestedSample.Explained 2 (nestedSample.explain 1 2) ∧
      (nestedSample.explain 1 5).map (·.blamed.name) = ["m", "Inner", "Inner"] ∧
      nestedSample.Explained 5 (nestedSample.explain 1 5) := by
  have hdeg : nestedSample.degrades = true := by decide
  exact ⟨hdeg, by decide, explained_explain hdeg (by decide), by decide,
    explained_explain hdeg (by decide)⟩

/-! ### Deeper explanations -/

theorem trace_eq_nil_iff {further : Nat} : t.trace further = [] ↔ t.cause? = none := by
  cases further with
  | zero => rw [trace, Option.toList_eq_nil_iff]
  | succ further =>
    rw [trace]
    cases t.cause? <;> simp

/-- An explanation that may go further goes on where the other one ends. -/
theorem trace_prefix_of_le {n n' : Nat} (h : n ≤ n') (t : CppType) : t.trace n <+: t.trace n' := by
  induction n generalizing n' t with
  | zero =>
    cases n' with
    | zero => exact List.prefix_rfl
    | succ n' =>
      rw [trace, trace]
      cases t.cause? with
      | none => exact List.prefix_rfl
      | some step => exact List.prefix_append [step] _
  | succ n ih =>
    obtain ⟨n', rfl⟩ : ∃ k, n' = k + 1 := ⟨n' - 1, by omega⟩
    rw [trace, trace]
    cases t.cause? with
    | none => exact List.prefix_rfl
    | some step =>
      refine (List.prefix_cons_inj step).mpr ?_
      cases step.blamed.type? with
      | none => exact List.prefix_rfl
      | some u => exact ih (by omega) u

theorem explain_prefix_of_le {m m' : Int} (h : m ≤ m') (t : CppType) :
    t.explain 1 m <+: t.explain 1 m' :=
  trace_prefix_of_le (by omega) t

/-- Whether there is an explanation at all does not depend on how far it may go. -/
theorem isEmpty_explain (m m' : Int) (t : CppType) :
    (t.explain 1 m).isEmpty = (t.explain 1 m').isEmpty := by
  rw [Bool.eq_iff_iff, List.isEmpty_iff, List.isEmpty_iff, explain, explain, trace_eq_nil_iff,
    trace_eq_nil_iff]

end CppType

end GrowthAudit
