import GrowthAudit.Proofs.CppType.SubObjects
import Mathlib.Logic.Relation

/-!
# What a classification means

`Ctor.throwing` computes the class of a constructor by recursion through the types.  This file says
what the class means without the recursion.  A constructor whose specification is implied leaves the
work to constructors of its sub-objects (`Delegates`), those do the same, and so on along a path
that ends somewhere:

* at a constructor that is written to throw (`Throws`), or
* where nobody knows: at a condition that nobody evaluated, or at a constructor with a sub-object
  that has no definition or that cannot be made at all (`Doubtful`).

`Ctor.throwing_iff` is the main statement: a constructor throws iff a path leads to the first kind
of end, it is unknown iff paths lead to the second kind only, and it does not throw iff no path
leads to either.

Both halves are one induction.  `Leads.iff_throwing` runs it for any set `B` of classes that a
maximum meets exactly if one of its two sides does; `{yes}` and `{unknown, yes}` are such sets.
-/

namespace GrowthAudit

/-- The constructor that makes an object of a record as a part of another object: the usable move
constructor if there is one and the object is moved, the usable copy constructor otherwise. -/
inductive Record.Picks (r : Record CppType) : (moving : Bool) → Ctor → Prop
  | move {c : Ctor} : r.moveCtor? = some c → r.Picks true c
  | copy {moving : Bool} {c : Ctor} : (moving = true → r.moveCtor? = none) →
      r.copyCtor? = some c → r.Picks moving c

theorem Record.transferCtor?_eq_some_iff {r : Record CppType} {moving : Bool} {c : Ctor} :
    r.transferCtor? moving = some c ↔ r.Picks moving c := by
  rw [transferCtor?, Option.or_eq_some_iff]
  constructor
  · rintro (h | ⟨hm, hc⟩)
    · cases moving with
      | true => exact .move h
      | false => cases h
    · refine .copy (fun h => ?_) hc
      rwa [if_pos h] at hm
  · rintro (h | ⟨hm, hc⟩)
    · exact Or.inl h
    · refine Or.inr ⟨?_, hc⟩
      by_cases h : moving = true
      · rw [if_pos h, hm h]
      · rw [if_neg h]

/-- One step of a path: a constructor with an implied specification, and the one that makes one of
the sub-objects.  A constant member is copied, and a trivially copyable one needs no constructor. -/
inductive Delegates : Record CppType × Ctor → Record CppType × Ctor → Prop
  | step {r s : Record CppType} {c d : Ctor} {t : CppType} {isConst : Bool} :
      c.spec = .unevaluated → (t, isConst) ∈ r.subObjects → t.isTrivial = false →
      t.definition = some s → s.Picks (c.isMove && !isConst) d → Delegates (r, c) (s, d)

/-- A path ends here with a constructor that is written to throw. -/
def Throws (p : Record CppType × Ctor) : Prop :=
  p.2.spec = .absent ∨ p.2.spec = .noexceptFalse ∨ p.2.spec = .throwSome

/-- The constructor needs a sub-object that has no definition or no usable constructor. -/
def Blocked (p : Record CppType × Ctor) : Prop :=
  p.2.spec = .unevaluated ∧ ∃ t isConst, (t, isConst) ∈ p.1.subObjects ∧
    (t.isComplete = false ∨
      t.isTrivial = false ∧ ∃ s, t.definition = some s ∧ ∀ d, ¬ s.Picks (p.2.isMove && !isConst) d)

/-- A path ends here without an answer. -/
def Doubtful (p : Record CppType × Ctor) : Prop :=
  p.2.spec = .noexceptDependent ∨ Blocked p

/-- A path from the first constructor leads to one with the given property. -/
def Leads (E : Record CppType × Ctor → Prop) (p : Record CppType × Ctor) : Prop :=
  ∃ q, Relation.ReflTransGen Delegates p q ∧ E q

theorem Leads.iff_or_step {E : Record CppType × Ctor → Prop} {p : Record CppType × Ctor} :
    Leads E p ↔ E p ∨ ∃ q, Delegates p q ∧ Leads E q := by
  constructor
  · rintro ⟨q, hpath, hq⟩
    rcases Relation.ReflTransGen.cases_head hpath with rfl | ⟨m, hstep, hrest⟩
    · exact Or.inl hq
    · exact Or.inr ⟨m, hstep, q, hrest, hq⟩
  · rintro (hp | ⟨m, hstep, q, hrest, hq⟩)
    · exact ⟨p, .refl, hp⟩
    · exact ⟨q, .head hstep hrest, hq⟩

theorem Leads.or_iff {E F : Record CppType × Ctor → Prop} {p : Record CppType × Ctor} :
    Leads (fun q => E q ∨ F q) p ↔ Leads E p ∨ Leads F p := by
  simp only [Leads, and_or_left, exists_or]

/-! ### One induction for both kinds of ends -/

section

variable {B : Throwing → Prop} (hno : ¬ B .no) (hmax : ∀ a b, B (.max a b) ↔ B a ∨ B b)

include hno hmax in
theorem Throwing.sup_meets {as : List Throwing} : B (.sup as) ↔ ∃ a ∈ as, B a := by
  induction as with
  | nil => simp [sup, hno]
  | cons a as ih => simp [sup, hmax, ih]

include hno hmax in
theorem Record.derived_meets {r : Record CppType} {moving : Bool} :
    B (r.derived moving) ↔ ∃ s ∈ r.subObjects, B (s.1.contribution (moving && !s.2)) := by
  rw [derived, Throwing.sup_meets hno hmax]
  constructor
  · rintro ⟨a, ha, hB⟩
    obtain ⟨s, hs, rfl⟩ := List.mem_map.mp ha
    exact ⟨s, hs, hB⟩
  · rintro ⟨s, hs, hB⟩
    exact ⟨_, List.mem_map_of_mem hs, hB⟩

include hno in
theorem CppType.contribution_meets {t : CppType} {moving : Bool} :
    B (t.contribution moving) ↔
      (B .unknown ∧ (t.isComplete = false ∨
        t.isTrivial = false ∧ ∃ s, t.definition = some s ∧ ∀ d, ¬ s.Picks moving d)) ∨
      (t.isTrivial = false ∧ ∃ s, t.definition = some s ∧
        ∃ d, s.Picks moving d ∧ B (d.throwing (some s))) := by
  simp only [← Record.transferCtor?_eq_some_iff, contribution_eq]
  cases ht : t.isTrivial with
  | true =>
    have hc : t.isComplete = true := by
      rw [isTrivial, Bool.or_eq_true] at ht
      rw [isComplete, Bool.or_eq_true]
      refine ht.imp_right fun h => ?_
      cases hd : t.definition with
      | none => simp [hd] at h
      | some r => rfl
    simp [hno, hc]
  | false =>
    have hs : t.isScalar = false := by
      rw [isTrivial, Bool.or_eq_false_iff] at ht
      exact ht.1
    cases hd : t.definition with
    | none => simp [isComplete, hs, hd]
    | some r =>
      cases hc : r.transferCtor? moving <;> simp [isComplete, hs, hd, hc]

/-- Where a path ends with a class in `B`. -/
def Ends (B : Throwing → Prop) (p : Record CppType × Ctor) : Prop :=
  (∃ w, p.2.spec.written? = some w ∧ B w) ∨ B .unknown ∧ Blocked p

include hno hmax in
/-- **A constructor has a class in `B` iff a path leads to one where `B` is written or owed.**  The
induction is on the types, so it follows the path downward; whether the sub-objects are moved or
copied varies along it. -/
theorem Leads.iff_throwing (r : Record CppType) (c : Ctor) :
    Leads (Ends B) (r, c) ↔ B (c.throwing (some r)) := by
  suffices h : ∀ t : CppType, ∀ r, t.definition = some r → ∀ c,
      Leads (Ends B) (r, c) ↔ B (c.throwing (some r)) from h (.complete r) r rfl c
  intro t
  induction t using CppType.inductionOnSubObjects with
  | step t ih =>
    intro r hr c
    rw [Leads.iff_or_step]
    cases hw : c.spec.written? with
    | some w =>
      have hne : c.spec ≠ .unevaluated := fun he => by simp [he, ExceptionSpec.written?] at hw
      have hstep : ¬ ∃ q, Delegates (r, c) q ∧ Leads (Ends B) q := by
        rintro ⟨q, ⟨he, _⟩, _⟩
        exact hne he
      rw [Ctor.throwing_of_written hw, or_iff_left hstep]
      simp [Ends, Blocked, hw, hne]
    | none =>
      have he : c.spec = .unevaluated := ExceptionSpec.written?_eq_none.mp hw
      rw [Ctor.throwing_of_unevaluated he, Record.derived_meets hno hmax]
      constructor
      · rintro ((⟨w, hw', _⟩ | ⟨hu, _, t, k, hs, hblock⟩) | ⟨q, hstep, hq⟩)
        · cases hw.symm.trans hw'
        · exact ⟨(t, k), hs, (CppType.contribution_meets hno).mpr (Or.inl ⟨hu, hblock⟩)⟩
        · cases hstep with
          | @step _ s _ d t k _ hs ht hd hpick =>
            refine ⟨(t, k), hs, (CppType.contribution_meets hno).mpr (Or.inr ⟨ht, s, hd, d, hpick, ?_⟩)⟩
            exact (ih r hr (t, k) hs s hd d).mp hq
      · rintro ⟨⟨t, k⟩, hs, hB⟩
        rcases (CppType.contribution_meets hno).mp hB with ⟨hu, hblock⟩ | ⟨ht, s, hd, d, hpick, hB'⟩
        · exact Or.inl (Or.inr ⟨hu, he, t, k, hs, hblock⟩)
        · exact Or.inr ⟨(s, d), .step he hs ht hd hpick, (ih r hr (t, k) hs s hd d).mpr hB'⟩

end

/-! ### The two kinds of ends -/

theorem ends_yes_iff {p : Record CppType × Ctor} : Ends (· = .yes) p ↔ Throws p := by
  cases h : p.2.spec <;> simp [Ends, Throws, h, ExceptionSpec.written?]

theorem ends_ne_no_iff {p : Record CppType × Ctor} :
    Ends (· ≠ .no) p ↔ Throws p ∨ Doubtful p := by
  cases h : p.2.spec <;> simp [Ends, Throws, Doubtful, Blocked, h, ExceptionSpec.written?]

theorem Ctor.throwing_eq_yes_iff_leads (r : Record CppType) (c : Ctor) :
    c.throwing (some r) = .yes ↔ Leads Throws (r, c) := by
  have h := Leads.iff_throwing (B := (· = .yes)) (by simp) (by simp) r c
  rw [← h]
  simp only [Leads, ends_yes_iff]

theorem Ctor.throwing_ne_no_iff_leads (r : Record CppType) (c : Ctor) :
    c.throwing (some r) ≠ .no ↔ Leads Throws (r, c) ∨ Leads Doubtful (r, c) := by
  have h := Leads.iff_throwing (B := (· ≠ .no)) (by simp)
    (fun a b => by rw [ne_eq, Throwing.max_eq_no, Classical.not_and_iff_not_or_not]) r c
  rw [← h, ← Leads.or_iff]
  simp only [Leads, ends_ne_no_iff]

/-! ### Copying goes on as copying -/

/-- **Behind a copy come copies.**  A path that has come to a constructor which does not move goes
on with copy constructors only, unless it meets one that is flagged as a move constructor, too. -/
theorem copies_of_path {p q : Record CppType × Ctor}
    (hpath : Relation.ReflTransGen
      (fun p q => Delegates p q ∧ ¬ (q.2.isCopy = true ∧ q.2.isMove = true)) p q)
    (hp : p.2.isMove = false) : q = p ∨ q.2.isCopy = true ∧ q.2.isMove = false := by
  have hstep : ∀ {p q : Record CppType × Ctor}, Delegates p q → p.2.isMove = false →
      q.2.isCopy = true := by
    rintro _ _ ⟨_, _, _, _, hpick⟩ hp
    rw [show (_ && _) = false from by rw [hp, Bool.false_and]] at hpick
    cases hpick with
    | copy _ hc =>
      obtain ⟨hf, _⟩ := Option.filter_eq_some_iff.mp hc
      exact List.find?_some hf
  induction hpath with
  | refl => exact Or.inl rfl
  | @tail m q _ hlast ih =>
    have hm : m.2.isMove = false := by
      rcases ih with rfl | h
      · exact hp
      · exact h.2
    have hcopy := hstep hlast.1 hm
    exact Or.inr ⟨hcopy, Bool.eq_false_iff.mpr fun h => hlast.2 ⟨hcopy, h⟩⟩

/-- **What the class of a constructor means.**  It throws iff a path leads to one that is written to
throw.  It does not throw iff no path leads there and none to a doubtful end, and it is unknown in
the remaining case.  Once a path has come to a constructor that does not move it copies. -/
theorem Ctor.throwing_iff (r : Record CppType) (c : Ctor) :
    (c.throwing (some r) = .yes ↔ Leads Throws (r, c)) ∧
      (c.throwing (some r) = .no ↔ ¬ Leads Throws (r, c) ∧ ¬ Leads Doubtful (r, c)) ∧
      (c.throwing (some r) = .unknown ↔ ¬ Leads Throws (r, c) ∧ Leads Doubtful (r, c)) ∧
      ∀ p, Relation.ReflTransGen Delegates (r, c) p → p.2.isMove = false → ∀ q,
        Relation.ReflTransGen
          (fun p q => Delegates p q ∧ ¬ (q.2.isCopy = true ∧ q.2.isMove = true)) p q →
        q = p ∨ q.2.isCopy = true ∧ q.2.isMove = false := by
  have hyes := throwing_eq_yes_iff_leads r c
  have hno := throwing_ne_no_iff_leads r c
  refine ⟨hyes, ?_, ?_, fun p _ hp q hpath => copies_of_path hpath hp⟩
  · rw [← not_or, ← hno, Classical.not_not]
  · rw [← hyes]
    constructor
    · intro h
      have hleads := hno.mp (by rw [h]; decide)
      rw [← hyes, h] at hleads
      exact ⟨by rw [h]; decide, hleads.resolve_left (by decide)⟩
    · rintro ⟨hne, hd⟩
      have hne' := hno.mpr (Or.inr hd)
      cases h : c.throwing (some r) with
      | no => exact absurd h hne'
      | unknown => rfl
      | yes => exact absurd h hne

end GrowthAudit
