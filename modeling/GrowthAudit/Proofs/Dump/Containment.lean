import GrowthAudit.Proofs.CppType.SubObjects
import GrowthAudit.Proofs.Dump.Building
import GrowthAudit.Proofs.Dump.Headings
import GrowthAudit.Proofs.Dump.Loops

/-!
# Which records a record mentions

A record mentions the records that its bases and members resolve to.  It contains those among them
that are its bases and own members; a static member is mentioned, but not contained.  Both relations
are read off the outlines, so they can be computed from the configuration.

* `Configuration.ContainmentAcyclic`: no record contains itself, directly or not.  This holds of
  every program that compiles.
* `Configuration.OnlyStaticCycles`: more than that, no record that is contained leads back to the
  one that contains it, not even through static members.

Neither depends on the functions of the records (`Configuration.SameMembers`).  To show that either
holds of a given configuration it is enough to number its records
(`Configuration.containmentAcyclic_of_rank`, `Configuration.onlyStaticCycles_of_rank`).
-/

namespace GrowthAudit

def Resolution.scope? : Resolution → Option Nat
  | .known _ => none
  | .record i => some i

theorem Resolution.scope?_eq_some {r : Resolution} {i : Nat} :
    r.scope? = some i ↔ r = .record i := by
  cases r <;> simp [scope?]

/-- The scopes of all bases and members. -/
def Record.mentioned (o : Record Resolution) : List Nat :=
  (o.bases.map (·.type) ++ o.fields.map (·.type)).filterMap Resolution.scope?

/-- The scopes of bases and own members. -/
def Record.contained (o : Record Resolution) : List Nat :=
  (o.subObjects.map (·.1)).filterMap Resolution.scope?

theorem Record.mem_mentioned {o : Record Resolution} {j : Nat} :
    j ∈ o.mentioned ↔
      (∃ b ∈ o.bases, b.type = .record j) ∨ ∃ f ∈ o.fields, f.type = .record j := by
  simp only [mentioned, List.mem_filterMap, List.mem_append, List.mem_map,
    Resolution.scope?_eq_some]
  constructor
  · rintro ⟨r, ⟨b, hb, rfl⟩ | ⟨f, hf, rfl⟩, hr⟩
    · exact Or.inl ⟨b, hb, hr⟩
    · exact Or.inr ⟨f, hf, hr⟩
  · rintro (⟨b, hb, hr⟩ | ⟨f, hf, hr⟩)
    · exact ⟨b.type, Or.inl ⟨b, hb, rfl⟩, hr⟩
    · exact ⟨f.type, Or.inr ⟨f, hf, rfl⟩, hr⟩

theorem Record.mem_contained {o : Record Resolution} {j : Nat} :
    j ∈ o.contained ↔ ∃ isConst, (Resolution.record j, isConst) ∈ o.subObjects := by
  simp only [contained, List.mem_filterMap, List.mem_map, Resolution.scope?_eq_some]
  constructor
  · rintro ⟨r, ⟨⟨_, isConst⟩, hs, rfl⟩, rfl⟩
    exact ⟨isConst, hs⟩
  · rintro ⟨isConst, hs⟩
    exact ⟨.record j, ⟨(.record j, isConst), hs, rfl⟩, rfl⟩

theorem Record.mentioned_of_contained {o : Record Resolution} {j : Nat} (h : j ∈ o.contained) :
    j ∈ o.mentioned := by
  obtain ⟨isConst, hs⟩ := mem_contained.mp h
  rw [mem_mentioned]
  rcases mem_subObjects.mp hs with ⟨b, hb, he⟩ | ⟨f, hf, _, he⟩
  · exact Or.inl ⟨b, hb, (Prod.mk.inj he).1.symm⟩
  · exact Or.inr ⟨f, hf, (Prod.mk.inj he).1.symm⟩

namespace Configuration

/-- The scopes that the definition of a scope mentions; none without a body. -/
def mentioned (c : Configuration) (i : Nat) : List Nat :=
  ((c.outline? i).map (·.mentioned)).getD []

/-- The scopes that the definition of a scope contains. -/
def contained (c : Configuration) (i : Nat) : List Nat :=
  ((c.outline? i).map (·.contained)).getD []

theorem mem_mentioned {c : Configuration} {i j : Nat} :
    j ∈ c.mentioned i ↔ ∃ o, c.outline? i = some o ∧ j ∈ o.mentioned := by
  rw [mentioned]
  cases c.outline? i <;> simp

theorem mem_contained {c : Configuration} {i j : Nat} :
    j ∈ c.contained i ↔ ∃ o, c.outline? i = some o ∧ j ∈ o.contained := by
  rw [contained]
  cases c.outline? i <;> simp

theorem mentioned_of_contained {c : Configuration} {i j : Nat} (h : j ∈ c.contained i) :
    j ∈ c.mentioned i := by
  obtain ⟨o, ho, hj⟩ := mem_contained.mp h
  exact mem_mentioned.mpr ⟨o, ho, Record.mentioned_of_contained hj⟩

/-- The definition of the first scope leads to the second one, through any bases and members. -/
def LeadsTo (c : Configuration) : Nat → Nat → Prop :=
  Relation.ReflTransGen fun i j => j ∈ c.mentioned i

/-- The first scope contains the second one, directly or not. -/
def Holds (c : Configuration) : Nat → Nat → Prop :=
  Relation.TransGen fun i j => j ∈ c.contained i

/-- No record contains itself. -/
def ContainmentAcyclic (c : Configuration) : Prop := ∀ i, ¬ c.Holds i i

/-- No record that is contained in another one leads back to it, so a cycle of records consists of
static members. -/
def OnlyStaticCycles (c : Configuration) : Prop := ∀ i, ∀ j ∈ c.contained i, ¬ c.LeadsTo j i

theorem OnlyStaticCycles.containmentAcyclic {c : Configuration} (h : c.OnlyStaticCycles) :
    c.ContainmentAcyclic := by
  intro i hi
  obtain ⟨j, hij, hji⟩ := Relation.TransGen.head'_iff.mp hi
  exact h i j hij (Relation.ReflTransGen.mono (fun _ _ => mentioned_of_contained) _ _ hji)

/-- It is enough that numbers go down along containment. -/
theorem containmentAcyclic_of_rank {c : Configuration} (rank : Nat → Nat)
    (hc : ∀ i < c.scopes.length, ∀ j ∈ c.contained i, rank j < rank i) : c.ContainmentAcyclic := by
  refine not_transGen_of_rank rank fun i j hj => ?_
  obtain ⟨o, ho, _⟩ := mem_contained.mp hj
  exact hc i (lt_length_of_outline? ho) j hj

/-- It is enough that numbers go down along containment and do not go up along mention. -/
theorem onlyStaticCycles_of_rank {c : Configuration} (rank : Nat → Nat)
    (hm : ∀ i < c.scopes.length, ∀ j ∈ c.mentioned i, rank j ≤ rank i)
    (hc : ∀ i < c.scopes.length, ∀ j ∈ c.contained i, rank j < rank i) : c.OnlyStaticCycles := by
  have hle : ∀ {j k}, c.LeadsTo j k → rank k ≤ rank j := by
    intro j k hk
    induction hk with
    | refl => exact Nat.le_refl _
    | tail _ hstep ih =>
      obtain ⟨o, ho, _⟩ := mem_mentioned.mp hstep
      exact Nat.le_trans (hm _ (lt_length_of_outline? ho) _ hstep) ih
  intro i j hj hleads
  obtain ⟨o, ho, _⟩ := mem_contained.mp hj
  exact Nat.lt_irrefl _ (Nat.lt_of_le_of_lt (hle hleads) (hc i (lt_length_of_outline? ho) j hj))

/-! ### Configurations that differ in functions -/

/-- The same tokens and the same scopes but for their functions. -/
def SameMembers (d c : Configuration) : Prop :=
  d.tokens = c.tokens ∧
    d.scopes.map (fun s => { s with functions := [] }) =
      c.scopes.map fun s => { s with functions := [] }

theorem SameMembers.refl (c : Configuration) : c.SameMembers c := ⟨rfl, rfl⟩

namespace SameMembers

variable {c d : Configuration} (h : d.SameMembers c)

include h

theorem headings : d.headings = c.headings := by
  have hscopes := congrArg (List.map Scope.heading) h.2
  rw [List.map_map, List.map_map] at hscopes
  exact congrArg₂ (fun ts ss => ({ tokens := ts, scopes := ss } : Configuration)) h.1 hscopes

theorem keyOf (i : Nat) : d.keyOf i = c.keyOf i := keyOf_congr h.headings i

theorem keyOf_injective (hkeys : Function.Injective c.keyOf) : Function.Injective d.keyOf := by
  intro i j hij
  rw [h.keyOf, h.keyOf] at hij
  exact hkeys hij

theorem scope? (i : Nat) :
    (d.scope? i).map (fun s => { s with functions := [] }) =
      (c.scope? i).map fun s => { s with functions := [] } := by
  have hi := congrArg (·[i]?) h.2
  rwa [List.getElem?_map, List.getElem?_map] at hi

/-- The bases and members of a record do not depend on the functions. -/
theorem parts (i : Nat) :
    (d.outline? i).map (fun o => (o.bases, o.fields)) =
      (c.outline? i).map fun o => (o.bases, o.fields) := by
  have hbase := outlineBase_congr h.headings
  have hfield := outlineField_congr h.headings
  have hs := h.scope? i
  rw [outline?, outline?]
  cases hd : d.scope? i with
  | none =>
    cases hc : c.scope? i with
    | none => rfl
    | some s => simp [hd, hc] at hs
  | some s' =>
    cases hc : c.scope? i with
    | none => simp [hd, hc] at hs
    | some s =>
      simp only [hd, hc, Option.map_some, Option.some.injEq, Scope.mk.injEq] at hs
      obtain ⟨-, -, -, hbody, -, hmembers, -⟩ := hs
      simp only [Option.bind_some, Option.map_map, hbody, hmembers, hbase, hfield, h.1]
      rfl

theorem mentioned (i : Nat) : d.mentioned i = c.mentioned i := by
  have hp := congrArg (Option.map fun p : List (Base Resolution) × List (Field Resolution) =>
    (p.1.map (·.type) ++ p.2.map (·.type)).filterMap Resolution.scope?) (h.parts i)
  rw [Option.map_map, Option.map_map] at hp
  exact congrArg (·.getD []) hp

theorem contained (i : Nat) : d.contained i = c.contained i := by
  have hp := congrArg (Option.map fun p : List (Base Resolution) × List (Field Resolution) =>
    (Record.contained { name := "", bases := p.1, fields := p.2 })) (h.parts i)
  rw [Option.map_map, Option.map_map] at hp
  exact congrArg (·.getD []) hp

theorem onlyStaticCycles (hc : c.OnlyStaticCycles) : d.OnlyStaticCycles := by
  intro i j hj hleads
  rw [h.contained] at hj
  refine hc i j hj (Relation.ReflTransGen.mono (fun a b hab => ?_) _ _ hleads)
  rwa [h.mentioned] at hab

end SameMembers

end Configuration

end GrowthAudit
