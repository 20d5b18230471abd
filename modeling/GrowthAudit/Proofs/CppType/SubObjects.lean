import GrowthAudit.CppType.Verdict
import Mathlib.Data.List.Forall2

/-!
# Sub-objects

The verdict on a type reads nothing of its definition but the constructors, the trivially copyable
flag and the sub-objects.  This file says so once, in the form that later proofs use:

* `CppType.inductionOnSubObjects`: what holds of a type as soon as it holds of the sub-objects of
  its definition holds of every type.
* `Ctor.throwing_eq_yes_iff`: a constructor that throws is written to throw, or a sub-object throws.
* `CppType.contribution_eq_yes_iff`: a type that is not trivially copyable throws as a part if its
  transferring constructor does.
* `CppType.degrades_iff`: what a degrading type looks like.

Two records whose bases and own members correspond have corresponding sub-objects
(`Record.subObjects_forall₂`); what the static members are does not matter.
-/

namespace GrowthAudit

theorem Record.mem_subObjects {r : Record τ} {s : τ × Bool} :
    s ∈ r.subObjects ↔
      (∃ b ∈ r.bases, s = (b.type, false)) ∨
        ∃ f ∈ r.fields, f.isOwn = true ∧ s = (f.type, f.isConst) := by
  simp only [subObjects, List.mem_append, List.mem_map, List.mem_filter, eq_comm (a := s), and_assoc]

theorem CppType.inductionOnSubObjects {P : CppType → Prop} (t : CppType)
    (step : ∀ t, (∀ r, t.definition = some r → ∀ s ∈ r.subObjects, P s.1) → P t) : P t := by
  induction t using CppType.inductionOn with
  | step name kind definition ih =>
    refine step _ fun r hr s hs => ?_
    obtain ⟨hf, hb⟩ := ih r hr
    rcases Record.mem_subObjects.mp hs with ⟨b, hmem, rfl⟩ | ⟨f, hmem, _, rfl⟩
    · exact hb b hmem
    · exact hf f hmem

/-! ### Records with corresponding parts -/

/-- The first of a sort, where corresponding entries are of the same sort. -/
theorem find?_forall₂ {R : α → β → Prop} {p : α → Bool} {q : β → Bool}
    (hpq : ∀ a b, R a b → p a = q b) {as : List α} {bs : List β} (h : List.Forall₂ R as bs) :
    Option.Rel R (as.find? p) (bs.find? q) := by
  induction h with
  | nil => exact .none
  | @cons a b _ _ hab _ ih =>
    rw [List.find?_cons, List.find?_cons, hpq a b hab]
    cases q b with
    | true => exact .some hab
    | false => exact ih

/-- What the second list holds is related to something that the first list holds. -/
theorem exists_of_mem_forall₂ {R : α → β → Prop} {as : List α} {bs : List β}
    (h : List.Forall₂ R as bs) {b : β} (hb : b ∈ bs) : ∃ a ∈ as, R a b := by
  induction h with
  | nil => exact nomatch hb
  | @cons a _ _ _ hab _ ih =>
    rcases List.mem_cons.mp hb with rfl | hb
    · exact ⟨a, List.mem_cons_self, hab⟩
    · obtain ⟨a', ha', hab'⟩ := ih hb
      exact ⟨a', List.mem_cons_of_mem _ ha', hab'⟩

/-- The same sub-object with a type that may be another one. -/
inductive OnType (R : τ → σ → Prop) : τ × Bool → σ × Bool → Prop
  | mk {t : τ} {u : σ} {isConst : Bool} : R t u → OnType R (t, isConst) (u, isConst)

/-- The same base with a type that may be another one. -/
inductive Base.Retyped (R : τ → σ → Prop) : Base τ → Base σ → Prop
  | mk {t : τ} {u : σ} {isVirtual : Bool} {location : Location} : R t u →
      Retyped R ⟨t, isVirtual, location⟩ ⟨u, isVirtual, location⟩

/-- The same member with a type that may be another one; nothing is said of the type of a static
member. -/
inductive Field.Retyped (R : τ → σ → Prop) : Field τ → Field σ → Prop
  | mk {name : String} {t : τ} {u : σ} {isOwn isConst : Bool} {location : Location} :
      (isOwn = true → R t u) →
      Retyped R ⟨name, t, isOwn, location, isConst⟩ ⟨name, u, isOwn, location, isConst⟩

theorem Field.retyped_same {R : τ → τ → Prop} {fields : List (Field τ)}
    (h : ∀ f ∈ fields, R f.type f.type) : List.Forall₂ (Field.Retyped R) fields fields :=
  List.forall₂_same.mpr fun f hf => .mk fun _ => h f hf

theorem Base.retyped_same {R : τ → τ → Prop} {bases : List (Base τ)}
    (h : ∀ b ∈ bases, R b.type b.type) : List.Forall₂ (Base.Retyped R) bases bases :=
  List.forall₂_same.mpr fun b hb => .mk (h b hb)

theorem Base.parts_forall₂ {R : τ → σ → Prop} {bs : List (Base τ)} {bs' : List (Base σ)}
    (h : List.Forall₂ (Base.Retyped R) bs bs') :
    List.Forall₂ (OnType R) (bs.map fun b => (b.type, false))
      (bs'.map fun b => (b.type, false)) := by
  rw [List.forall₂_map_left_iff, List.forall₂_map_right_iff]
  refine h.imp ?_
  rintro _ _ ⟨h⟩
  exact .mk h

theorem Field.own_forall₂ {R : τ → σ → Prop} {fs : List (Field τ)} {gs : List (Field σ)}
    (h : List.Forall₂ (Field.Retyped R) fs gs) :
    List.Forall₂ (OnType R) ((fs.filter (·.isOwn)).map fun f => (f.type, f.isConst))
      ((gs.filter (·.isOwn)).map fun f => (f.type, f.isConst)) := by
  induction h with
  | nil => exact .nil
  | cons hfield _ ih =>
    cases hfield with
    | @mk name t u isOwn isConst location h =>
      cases isOwn with
      | true => exact .cons (.mk (h rfl)) ih
      | false => exact ih

theorem Record.subObjects_forall₂ {R : τ → σ → Prop} {r : Record τ} {s : Record σ}
    (hb : List.Forall₂ (Base.Retyped R) r.bases s.bases)
    (hf : List.Forall₂ (Field.Retyped R) r.fields s.fields) :
    List.Forall₂ (OnType R) r.subObjects s.subObjects :=
  List.rel_append (Base.parts_forall₂ hb) (Field.own_forall₂ hf)

theorem exists_subObject_of_mem {R : τ → σ → Prop} {xs : List (τ × Bool)} {ys : List (σ × Bool)}
    (h : List.Forall₂ (OnType R) xs ys) {u : σ} {isConst : Bool} (hu : (u, isConst) ∈ ys) :
    ∃ t, (t, isConst) ∈ xs ∧ R t u := by
  obtain ⟨⟨t, _⟩, hmem, htu⟩ := exists_of_mem_forall₂ h hu
  cases htu with
  | mk htu => exact ⟨t, hmem, htu⟩

theorem exists_of_mem_subObject {R : τ → σ → Prop} {xs : List (τ × Bool)} {ys : List (σ × Bool)}
    (h : List.Forall₂ (OnType R) xs ys) {t : τ} {isConst : Bool} (ht : (t, isConst) ∈ xs) :
    ∃ u, (u, isConst) ∈ ys ∧ R t u := by
  induction h with
  | nil => exact nomatch ht
  | cons hxy _ ih =>
    rcases List.mem_cons.mp ht with rfl | ht
    · cases hxy with
      | @mk _ u _ htu => exact ⟨u, List.mem_cons_self, htu⟩
    · obtain ⟨u, hu, htu⟩ := ih ht
      exact ⟨u, List.mem_cons_of_mem _ hu, htu⟩

/-! ### Constructors -/

theorem Record.moveCtor?_congr {r : Record τ} {s : Record σ} (h : r.ctors = s.ctors) :
    r.moveCtor? = s.moveCtor? := by
  rw [moveCtor?, moveCtor?, h]

theorem Record.transferCtor?_congr {r : Record τ} {s : Record σ} (h : r.ctors = s.ctors)
    (moving : Bool) : r.transferCtor? moving = s.transferCtor? moving := by
  rw [transferCtor?, transferCtor?, moveCtor?_congr h, copyCtor?, copyCtor?, h]

theorem ExceptionSpec.written?_eq_none {e : ExceptionSpec} :
    e.written? = none ↔ e = .unevaluated := by
  cases e <;> simp [written?]

theorem Record.derived_eq_yes {r : Record CppType} {moving : Bool} :
    r.derived moving = .yes ↔ ∃ s ∈ r.subObjects, s.1.contribution (moving && !s.2) = .yes := by
  rw [derived, Throwing.sup_eq_yes, List.mem_map]

namespace Ctor

theorem throwing_of_written {c : Ctor} {w : Throwing} (h : c.spec.written? = some w)
    (owner : Option (Record CppType)) : c.throwing owner = w := by
  unfold throwing
  rw [h]

theorem throwing_of_unevaluated {c : Ctor} (h : c.spec = .unevaluated) (r : Record CppType) :
    c.throwing (some r) = r.derived c.isMove := by
  unfold throwing
  rw [ExceptionSpec.written?_eq_none.mpr h]

theorem throwing_eq_yes_iff {c : Ctor} {r : Record CppType} :
    c.throwing (some r) = .yes ↔
      c.spec.written? = some .yes ∨
        c.spec = .unevaluated ∧
          ∃ s ∈ r.subObjects, s.1.contribution (c.isMove && !s.2) = .yes := by
  cases hw : c.spec.written? with
  | some w =>
    have hne : c.spec ≠ .unevaluated := fun he => by simp [he, ExceptionSpec.written?] at hw
    rw [throwing_of_written hw]
    simp [hne]
  | none =>
    have he := ExceptionSpec.written?_eq_none.mp hw
    rw [throwing_of_unevaluated he, Record.derived_eq_yes]
    simp [he]

end Ctor

/-! ### Types -/

namespace CppType

theorem isTrivial_of_isScalar {t : CppType} (h : t.isScalar = true) : t.isTrivial = true := by
  rw [isTrivial, h, Bool.true_or]

theorem isTrivial_of_definition {t : CppType} {r : Record CppType} (h : t.definition = some r) :
    t.isTrivial = (t.isScalar || r.isTrivial) := by
  rw [isTrivial, h]
  rfl

theorem contribution_eq_yes_iff {t : CppType} {moving : Bool} :
    t.contribution moving = .yes ↔
      t.isTrivial = false ∧ ∃ r, t.definition = some r ∧
        ∃ c, r.transferCtor? moving = some c ∧ c.throwing (some r) = .yes := by
  rw [contribution_eq]
  cases t.isTrivial with
  | true => simp
  | false =>
    cases t.definition with
    | none => simp
    | some r => cases hc : r.transferCtor? moving <;> simp [hc]

theorem degrades_iff {t : CppType} :
    t.degrades = true ↔
      t.isTrivial = false ∧ ∃ r, t.definition = some r ∧
        ∀ c, r.moveCtor? = some c → c.throwing (some r) = .yes := by
  rw [degrades]
  cases t.isTrivial with
  | true => simp
  | false =>
    cases t.definition with
    | none => simp
    | some r => cases hc : r.moveCtor? <;> simp [Record.hasSafeMove, hc]

end CppType

end GrowthAudit
