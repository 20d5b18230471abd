import GrowthAudit.Proofs.Dump.Lingering

/-!
# When verdicts do not depend on the order of questions

One would like that the verdict on a record, or at a use of a container, does not depend on what was
asked before.  That no record contains itself is not enough for this, and `lingeringSample` is an
example: `A` has a static member of type `B`, and `B` contains an `A`.

* `onlyStaticCycles_iff_settled`: what it takes is that no record that is contained in another one
  leads back to it through any members, static ones included.

The condition is on members only, and it is exact in this sense: if it holds, then verdicts are
settled whatever functions the records declare; if it fails, then they are not settled for some
functions.
-/

namespace GrowthAudit.Configuration

/-- **Verdicts are settled, whatever the records declare, iff only static members lead back to a
record from inside.** -/
theorem onlyStaticCycles_iff_settled {c : Configuration} (hkeys : Function.Injective c.keyOf)
    (hacyclic : c.ContainmentAcyclic) :
    c.OnlyStaticCycles ↔ ∀ d : Configuration, d.SameMembers c → d.VerdictsSettled := by
  constructor
  · intro hstatic d hsame
    exact (hsame.onlyStaticCycles hstatic).settled (hsame.keyOf_injective hkeys)
  · intro hsettled i j hj hback
    have hne : i ≠ j := by
      rintro rfl
      exact hacyclic i (.single hj)
    exact not_settled_blaming hkeys hj hne hback (hsettled _ (c.sameMembers_blaming j))

/-! ### A record with a static member of its own type -/

/-- `struct B { B(B&&); }; struct A { static A s; B b; };`, with the scopes of `A` and `B` in this
order. -/
def settledSample : Configuration where
  tokens := [
    { text := "struct" }, { text := "B" }, { text := "\x7b" }, { text := "B" }, { text := "(" },
    { text := "B" }, { text := "&&" }, { text := ")" }, { text := ";" }, { text := "\x7d" },
    { text := ";" },
    { text := "struct" }, { text := "A" }, { text := "\x7b" }, { text := "static" }, { text := "A" },
    { text := "s", valueType := some { type := "record", scope := some 0 } }, { text := ";" },
    { text := "B" }, { text := "b", valueType := some { type := "record", scope := some 1 } },
    { text := ";" }, { text := "\x7d" }, { text := ";" }]
  scopes := [
    { kind := .record, className := "A", id := some "1", bodyStart := some 13
      members := [
        { nameToken := some 16, typeStart := some 15, typeEnd := some 15, isStatic := true },
        { nameToken := some 19, typeStart := some 18, typeEnd := some 18 }] },
    { kind := .record, className := "B", id := some "2", bodyStart := some 2
      functions := [{ kind := .moveConstructor, nameToken := some 3 }] }]

theorem settledSample_rank : (∀ i < settledSample.scopes.length,
    ∀ j ∈ settledSample.mentioned i, 1 - j ≤ 1 - i) ∧ ∀ i < settledSample.scopes.length,
      ∀ j ∈ settledSample.contained i, 1 - j < 1 - i := by
  decide

theorem onlyStaticCycles_iff_settled_sample :
    Function.Injective settledSample.keyOf ∧ settledSample.ContainmentAcyclic ∧
      (settledSample.recordType 0 []).1.degrades = true ∧ settledSample.VerdictsSettled := by
  have hkeys : Function.Injective settledSample.keyOf := keyOf_injective_of_nodup (by decide)
  have hstatic : settledSample.OnlyStaticCycles :=
    onlyStaticCycles_of_rank (fun i => 1 - i) settledSample_rank.1 settledSample_rank.2
  have hacyclic := hstatic.containmentAcyclic
  refine ⟨hkeys, hacyclic, by decide +kernel, ?_⟩
  exact (onlyStaticCycles_iff_settled hkeys hacyclic).mp hstatic _ (.refl _)

/-! ### A static member that leads back -/

/-- `struct B; struct A { static B s; A(A&&); }; struct B { A a; };`, a vector of `A` and a vector
of `B`, with the scopes of `A` and `B` in this order. -/
def lingeringSample : Configuration where
  tokens := [
    { text := "struct" }, { text := "B" }, { text := ";" },
    { text := "struct" }, { text := "A" }, { text := "\x7b" }, { text := "static" }, { text := "B" },
    { text := "s", valueType := some { type := "record", scope := some 1 } }, { text := ";" },
    { text := "A" }, { text := "(" }, { text := "A" }, { text := "&&" }, { text := ")" },
    { text := ";" }, { text := "\x7d" }, { text := ";" },
    { text := "struct" }, { text := "B" }, { text := "\x7b" }, { text := "A" },
    { text := "a", valueType := some { type := "record", scope := some 0 } }, { text := ";" },
    { text := "\x7d" }, { text := ";" },
    { text := "std" }, { text := "::" }, { text := "vector", location := ⟨"a.cpp", 4, 6⟩ },
    { text := "<" }, { text := "A", scope := some 0 }, { text := ">" }, { text := "as" },
    { text := ";" },
    { text := "std" }, { text := "::" }, { text := "vector", location := ⟨"a.cpp", 5, 6⟩ },
    { text := "<" }, { text := "B", scope := some 1 }, { text := ">" }, { text := "bs" },
    { text := ";" }]
  scopes := [
    { kind := .record, className := "A", id := some "1", bodyStart := some 5
      members := [{ nameToken := some 8, typeStart := some 7, typeEnd := some 7, isStatic := true }]
      functions := [{ kind := .moveConstructor, nameToken := some 10 }] },
    { kind := .record, className := "B", id := some "2", bodyStart := some 20
      members := [{ nameToken := some 22, typeStart := some 21, typeEnd := some 21 }] }]

/-- No record of `lingeringSample` contains itself.  Yet `B` degrades only if it is asked for before
`A`, so behind the vector of `A` the vector of `B` passes. -/
theorem lingeringSample_not_settled :
    Function.Injective lingeringSample.keyOf ∧ lingeringSample.ContainmentAcyclic ∧
      (lingeringSample.recordType 1 []).1.degrades = true ∧
      (lingeringSample.recordType 1 (lingeringSample.memoAfter [.record 0])).1.degrades = false ∧
      ((lingeringSample.containerSites ["std::vector"] []).1.map (·.element.degrades)) =
        [true, false] ∧
      ¬ lingeringSample.VerdictsSettled := by
  have hbefore : (lingeringSample.recordType 1 []).1.degrades = true := by decide +kernel
  have hafter : (lingeringSample.recordType 1 (lingeringSample.memoAfter [.record 0])).1.degrades =
      false := by decide +kernel
  refine ⟨keyOf_injective_of_nodup (by decide), ?_, hbefore, hafter, by decide +kernel, ?_⟩
  · exact containmentAcyclic_of_rank (fun i => i) (by decide)
  · intro hsettled
    cases hafter.symm.trans (((hsettled [.record 0]).1 1).trans hbefore)

end GrowthAudit.Configuration
