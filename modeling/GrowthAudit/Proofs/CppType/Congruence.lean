import GrowthAudit.Proofs.CppType.SubObjects

/-!
# Types that are judged alike

Two types are judged alike if their definitions correspond at all depths, as far as the verdict
reads them: the same constructors, the same triviality, and corresponding sub-objects.  The order of
the sub-objects is left open, since the class of a constructor is the worst of what they contribute
and the worst of a list is the same in every order (`Throwing.sup_perm`).

* `Record.Matches R`, `CppType.Matches R`: definitions and types that correspond, with types inside
  that are related by `R`.
* `Congruent R`: along the relation `R` all types correspond.  Then they contribute the same
  (`Congruent.contribution`), their constructors are of the same class (`Congruent.throwing`), and
  they degrade together (`Congruent.hasSafeMove`, `Congruent.degrades`).
-/

namespace GrowthAudit

/-- The worst of a list does not depend on its order. -/
theorem Throwing.sup_perm {as bs : List Throwing} (h : as.Perm bs) : sup as = sup bs := by
  induction h with
  | nil => rfl
  | cons a _ ih => rw [sup, sup, ih]
  | swap a b as =>
    show max b (max a (sup as)) = max a (max b (sup as))
    rw [← max_assoc, max_comm b a, max_assoc]
  | trans _ _ ih ih' => exact ih.trans ih'

/-- The definitions have the same constructors, and sub-objects with related types in some order. -/
structure Record.Matches (R : CppType → CppType → Prop) (r s : Record CppType) : Prop where
  ctors : r.ctors = s.ctors
  isTrivial : r.isTrivial = s.isTrivial
  subObjects : ∃ parts, List.Forall₂ (OnType R) r.subObjects parts ∧ parts.Perm s.subObjects

/-- Types of the same name and kind, with matching definitions or without any. -/
inductive CppType.Matches (R : CppType → CppType → Prop) : CppType → CppType → Prop
  | bare {name : String} {kind : TypeKind} : Matches R (.mk name kind none) (.mk name kind none)
  | defined {name : String} {kind : TypeKind} {r s : Record CppType} : r.Matches R s →
      Matches R (.mk name kind (some r)) (.mk name kind (some s))

/-- Related types match, with related types inside. -/
def Congruent (R : CppType → CppType → Prop) : Prop := ∀ t u, R t u → t.Matches R u

section

variable {R : CppType → CppType → Prop}

theorem contributions_eq {xs ys : List (CppType × Bool)} (h : List.Forall₂ (OnType R) xs ys)
    (hR : ∀ x ∈ xs, ∀ u, R x.1 u → ∀ moving, x.1.contribution moving = u.contribution moving)
    (moving : Bool) :
    xs.map (fun x => x.1.contribution (moving && !x.2)) =
      ys.map fun y => y.1.contribution (moving && !y.2) := by
  induction h with
  | nil => rfl
  | @cons x y xs ys hxy _ ih =>
    obtain ⟨hx, hxs⟩ := List.forall_mem_cons.mp hR
    rw [List.map_cons, List.map_cons, ih hxs]
    cases hxy with
    | mk htu => rw [hx _ htu]

namespace Record.Matches

variable {r s : Record CppType} (h : r.Matches R s)

include h

/-- Matching definitions come to the same if corresponding sub-objects do. -/
theorem derived
    (hR : ∀ x ∈ r.subObjects, ∀ u, R x.1 u → ∀ moving,
      x.1.contribution moving = u.contribution moving)
    (moving : Bool) : r.derived moving = s.derived moving := by
  obtain ⟨parts, hparts, hperm⟩ := h.subObjects
  rw [Record.derived, contributions_eq hparts hR]
  exact Throwing.sup_perm (hperm.map _)

theorem throwing_of_subObjects
    (hR : ∀ x ∈ r.subObjects, ∀ u, R x.1 u → ∀ moving,
      x.1.contribution moving = u.contribution moving)
    (c : Ctor) : c.throwing (some r) = c.throwing (some s) := by
  rw [Ctor.throwing, Ctor.throwing]
  cases c.spec.written? with
  | some written => rfl
  | none => exact h.derived hR c.isMove

end Record.Matches

theorem CppType.Matches.isTrivial {t u : CppType} (h : t.Matches R u) :
    t.isTrivial = u.isTrivial := by
  cases h with
  | bare => rfl
  | defined hrs => rw [isTrivial_of_definition rfl, isTrivial_of_definition rfl, hrs.isTrivial]; rfl

end

namespace Congruent

variable {R : CppType → CppType → Prop} (hR : Congruent R)

include hR

/-- **Related types contribute the same**, by induction on the first one. -/
theorem contribution {t u : CppType} (htu : R t u) (moving : Bool) :
    t.contribution moving = u.contribution moving := by
  induction t using CppType.inductionOnSubObjects generalizing u moving with
  | step t ih =>
    have hmatch := hR t u htu
    rw [CppType.contribution_eq, CppType.contribution_eq, hmatch.isTrivial]
    cases hmatch with
    | bare => rfl
    | @defined name kind r s hrs =>
      have hparts : ∀ x ∈ r.subObjects, ∀ v, R x.1 v → ∀ m,
          x.1.contribution m = v.contribution m := fun x hx v hxv m => ih r rfl x hx hxv m
      simp only [CppType.definition, Record.transferCtor?_congr hrs.ctors,
        hrs.throwing_of_subObjects hparts]

theorem throwing {r s : Record CppType} (h : r.Matches R s) (c : Ctor) :
    c.throwing (some r) = c.throwing (some s) :=
  h.throwing_of_subObjects (fun _ _ _ hxu m => hR.contribution hxu m) c

theorem hasSafeMove {r s : Record CppType} (h : r.Matches R s) :
    r.hasSafeMove = s.hasSafeMove := by
  rw [Record.hasSafeMove, Record.hasSafeMove, Record.moveCtor?_congr h.ctors]
  cases s.moveCtor? with
  | none => rfl
  | some c => simp only [hR.throwing h c]

theorem degrades {t u : CppType} (htu : R t u) : t.degrades = u.degrades := by
  have hmatch := hR t u htu
  rw [CppType.degrades, CppType.degrades, hmatch.isTrivial]
  cases hmatch with
  | bare => rfl
  | defined hrs => simp only [CppType.definition, hR.hasSafeMove hrs]

end Congruent

end GrowthAudit
