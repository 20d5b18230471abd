import GrowthAudit.Proofs.Dump.Answers

/-!
# Hidden definitions

`c.hide hidden` is `c` without the bodies of some scopes.  Names, keys and the kinds of scopes are
those of `c`, so bases and members resolve to the same scopes; a hidden record has no outline and
the others have the one that they had (`Configuration.outline?_hide`).  So hiding takes from what is
mentioned and contained and adds nothing, and where all cycles were static they stay so.

A base or member resolves to scopes of records only (`Configuration.kindOf_of_mem_contained`), so
whatever an answer has inside can be hidden by hiding records.
-/

namespace GrowthAudit.Configuration

/-- The configuration without the bodies of the given scopes. -/
def hide (c : Configuration) (hidden : List Nat) : Configuration :=
  { c with
    scopes := c.scopes.mapIdx fun i s => if i ∈ hidden then { s with bodyStart := none } else s }

variable (c : Configuration) (hidden : List Nat)

theorem scope?_hide (i : Nat) :
    (c.hide hidden).scope? i =
      (c.scope? i).map fun s => if i ∈ hidden then { s with bodyStart := none } else s := by
  rw [scope?, scope?, hide, List.getElem?_mapIdx]

theorem headings_hide : (c.hide hidden).headings = c.headings := by
  refine headings_ext rfl fun i => ?_
  rw [scope?_hide, Option.map_map]
  refine congrArg (Option.map · _) (funext fun s => ?_)
  rw [Function.comp_apply]
  split <;> rfl

theorem keyOf_hide (i : Nat) : (c.hide hidden).keyOf i = c.keyOf i := by
  rw [keyOf_congr (c.headings_hide hidden)]

theorem keyOf_hide_injective (hkeys : Function.Injective c.keyOf) :
    Function.Injective (c.hide hidden).keyOf := by
  intro i j hij
  rw [keyOf_hide, keyOf_hide] at hij
  exact hkeys hij

/-- A hidden record has no outline, and the others have the one that they had. -/
theorem outline?_hide (i : Nat) :
    (c.hide hidden).outline? i = if i ∈ hidden then none else c.outline? i := by
  by_cases hi : i ∈ hidden
  · rw [if_pos hi, outline?, scope?_hide]
    cases c.scope? i <;> simp [hi]
  · rw [if_neg hi]
    refine outline?_congr (c.headings_hide hidden) ?_
    rw [scope?_hide]
    simp [hi]

variable {c hidden}

theorem outline?_of_hide {i : Nat} {o : Record Resolution} (h : (c.hide hidden).outline? i = some o) :
    c.outline? i = some o := by
  rw [outline?_hide] at h
  split at h
  · cases h
  · exact h

theorem mem_mentioned_of_hide {i j : Nat} (h : j ∈ (c.hide hidden).mentioned i) :
    j ∈ c.mentioned i := by
  obtain ⟨o, ho, hj⟩ := mem_mentioned.mp h
  exact mem_mentioned.mpr ⟨o, outline?_of_hide ho, hj⟩

theorem mem_contained_of_hide {i j : Nat} (h : j ∈ (c.hide hidden).contained i) :
    j ∈ c.contained i := by
  obtain ⟨o, ho, hj⟩ := mem_contained.mp h
  exact mem_contained.mpr ⟨o, outline?_of_hide ho, hj⟩

theorem OnlyStaticCycles.hide (h : c.OnlyStaticCycles) (hidden : List Nat) :
    (c.hide hidden).OnlyStaticCycles := by
  intro i j hj hback
  refine h i j (mem_contained_of_hide hj) ?_
  exact Relation.ReflTransGen.mono (fun _ _ => mem_mentioned_of_hide) _ _ hback

theorem kindOf_of_mem_contained {i j : Nat} (h : j ∈ c.contained i) : c.kindOf j = .record := by
  obtain ⟨o, ho, hj⟩ := mem_contained.mp h
  obtain ⟨isConst, hs⟩ := Record.mem_contained.mp hj
  exact (found_of_mem_subObjects ho hs).kindOf

end GrowthAudit.Configuration
