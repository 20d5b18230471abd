import GrowthAudit.Dump.ScopeNames
import GrowthAudit.Proofs.Dump.EndlessScans

/-!
# Loops that end

Two loops over a configuration need not end.  The way out of a scope, through the scopes around it,
may go round in a circle, and the scan for the specifiers of a function may follow a link back to a
place where it has been.  `Configuration.enclosingNames` and `Specifiers.scan?` are cut after as
many steps as there are scopes or tokens.

Here neither is ever cut.  Where no scope is nested in itself, the way out comes to an end within
the bound (`Configuration.enclosedBy_enclosingNames`): it passes through different scopes.  Where
links of parentheses lead forward, every scan has an answer (`Specifiers.read?_eq_some`): it only
moves on.
-/

namespace GrowthAudit

/-- Where numbers go down along a relation, nothing is related to itself over any number of
steps. -/
theorem not_transGen_of_rank {r : Nat → Nat → Prop} (rank : Nat → Nat)
    (h : ∀ i j, r i j → rank j < rank i) (i : Nat) : ¬ Relation.TransGen r i i := by
  have hlt : ∀ {i j}, Relation.TransGen r i j → rank j < rank i := by
    intro i j hij
    induction hij with
    | single hij => exact h _ _ hij
    | tail _ hjk ih => exact Nat.lt_trans (h _ _ hjk) ih
  exact fun hi => Nat.lt_irrefl _ (hlt hi)

namespace Configuration

/-! ### The way out of a scope -/

/-- The second scope is the one that stands directly around the first one. -/
def NestedIn (c : Configuration) (i j : Nat) : Prop := (c.scope? i).bind (·.nestedIn) = some j

/-- No scope is nested in itself, directly or not. -/
def NestingAcyclic (c : Configuration) : Prop := ∀ i, ¬ Relation.TransGen c.NestedIn i i

/-- It is enough that numbers go down from each scope to the one around it. -/
theorem nestingAcyclic_of_rank {c : Configuration} (rank : Nat → Nat)
    (h : ∀ i < c.scopes.length, ∀ j ∈ (c.scope? i).bind (·.nestedIn), rank j < rank i) :
    c.NestingAcyclic := by
  refine not_transGen_of_rank rank fun i j hij => ?_
  obtain ⟨s, hs, _⟩ := Option.bind_eq_some_iff.mp hij
  exact h i (List.getElem?_eq_some_iff.mp hs).1 j hij

/-- The names of the records and namespaces on a way out that comes to an end. -/
inductive EnclosedBy (c : Configuration) : Option Nat → List String → Prop
  | outermost : EnclosedBy c none []
  | absent {i : Nat} : c.scope? i = none → EnclosedBy c (some i) []
  | counted {i : Nat} {s : Scope} {names : List String} : c.scope? i = some s →
      (s.kind = .record ∨ s.kind = .nameSpace) ∧ s.className ≠ "" →
      EnclosedBy c s.nestedIn names → EnclosedBy c (some i) (s.className :: names)
  | passed {i : Nat} {s : Scope} {names : List String} : c.scope? i = some s →
      ¬ ((s.kind = .record ∨ s.kind = .nameSpace) ∧ s.className ≠ "") →
      EnclosedBy c s.nestedIn names → EnclosedBy c (some i) names

/-- The scopes that the way out has passed are different and lead to where it is, and the steps that
are left are at least as many as the scopes that it has not passed. -/
structure WayOut (c : Configuration) (steps : Nat) (passed : List Nat) (outer : Option Nat) :
    Prop where
  nodup : passed.Nodup
  bounded : ∀ k ∈ passed, k < c.scopes.length
  leads : ∀ k ∈ passed, ∀ i ∈ outer, Relation.TransGen c.NestedIn k i
  steps : c.scopes.length ≤ steps + passed.length

namespace WayOut

variable {c : Configuration} {steps i : Nat} {passed : List Nat} {s : Scope}

theorem notMem (hnested : c.NestingAcyclic) (h : c.WayOut steps passed (some i)) : i ∉ passed :=
  fun hi => hnested i (h.leads i hi i rfl)

/-- One step out passes one more scope. -/
theorem step (hnested : c.NestingAcyclic) (h : c.WayOut (steps + 1) passed (some i))
    (hs : c.scope? i = some s) : c.WayOut steps (i :: passed) s.nestedIn where
  nodup := List.nodup_cons.mpr ⟨h.notMem hnested, h.nodup⟩
  bounded := by
    intro k hk
    rcases List.mem_cons.mp hk with rfl | hk
    · exact (List.getElem?_eq_some_iff.mp hs).1
    · exact h.bounded k hk
  leads := by
    intro k hk j hj
    have hij : c.NestedIn i j := by
      rw [NestedIn, hs]
      exact hj
    rcases List.mem_cons.mp hk with rfl | hk
    · exact .single hij
    · exact .tail (h.leads k hk i rfl) hij
  steps := by
    have hsteps := h.steps
    rw [List.length_cons]
    omega

/-- When no steps are left all scopes have been passed, so the way has left them. -/
theorem scope?_eq_none (hnested : c.NestingAcyclic) (h : c.WayOut 0 passed (some i)) :
    c.scope? i = none := by
  by_contra hsome
  have hi : i < c.scopes.length := by
    by_contra hi
    exact hsome (List.getElem?_eq_none (Nat.le_of_not_lt hi))
  have hnodup : (i :: passed).Nodup := List.nodup_cons.mpr ⟨h.notMem hnested, h.nodup⟩
  have hle : (i :: passed).length ≤ (List.range c.scopes.length).length := by
    refine hnodup.length_le_of_subset fun k hk => List.mem_range.mpr ?_
    rcases List.mem_cons.mp hk with rfl | hk
    · exact hi
    · exact h.bounded k hk
  have hsteps := h.steps
  rw [List.length_cons, List.length_range] at hle
  omega

theorem enclosedBy (hnested : c.NestingAcyclic) {outer : Option Nat}
    (h : c.WayOut steps passed outer) : c.EnclosedBy outer (c.enclosingNames steps outer) := by
  induction steps generalizing passed outer with
  | zero =>
    rw [enclosingNames]
    cases outer with
    | none => exact .outermost
    | some i => exact .absent (h.scope?_eq_none hnested)
  | succ steps ih =>
    cases outer with
    | none => exact .outermost
    | some i =>
      rw [enclosingNames]
      cases hs : c.scope? i with
      | none => exact .absent hs
      | some s =>
        have hrest := ih (h.step hnested hs)
        by_cases hcounts : (s.kind = .record ∨ s.kind = .nameSpace) ∧ s.className ≠ ""
        · simp only [if_pos hcounts]
          exact .counted hs hcounts hrest
        · simp only [if_neg hcounts]
          exact .passed hs hcounts hrest

end WayOut

/-- Where no scope is nested in itself, the names around a scope are all of them. -/
theorem enclosedBy_enclosingNames {c : Configuration} (hnested : c.NestingAcyclic)
    (outer : Option Nat) : c.EnclosedBy outer (c.enclosingNames c.scopes.length outer) := by
  have hstart : c.WayOut c.scopes.length [] outer :=
    ⟨List.nodup_nil, nofun, nofun, Nat.le_add_right _ _⟩
  exact hstart.enclosedBy hnested

end Configuration

/-! ### The scan for specifiers -/

namespace Token

/-- The links of opening parentheses lead forward. -/
def LinksForward (ts : List Token) : Prop :=
  ∀ i < ts.length, textOf ts[i]? = "(" → ∀ j ∈ ts[i]?.bind (·.link), i < j

instance (ts : List Token) : Decidable (LinksForward ts) :=
  inferInstanceAs
    (Decidable (∀ i < ts.length, textOf ts[i]? = "(" → ∀ j ∈ ts[i]?.bind (·.link), i < j))

end Token

namespace Specifiers

variable {ts : List Token} (hlinks : Token.LinksForward ts)

include hlinks

theorem not_linkedBack (i : Nat) : ¬ LinkedBack ts i := by
  rintro ⟨hopens, close, hclose, hlt⟩
  obtain ⟨t, ht, _⟩ := Option.bind_eq_some_iff.mp hclose
  have hforward := hlinks (i + 1) (List.getElem?_eq_some_iff.mp ht).1 hopens.2 close hclose
  omega

/-- Where links lead forward, every function has specifiers. -/
theorem read?_eq_some (name : Option Nat) : read? ts name = some (ofFunction ts name) := by
  obtain ⟨s, hs⟩ := exists_read? fun _ _ k _ => not_linkedBack hlinks k
  rw [ofFunction, hs, Option.getD_some]

end Specifiers

end GrowthAudit
