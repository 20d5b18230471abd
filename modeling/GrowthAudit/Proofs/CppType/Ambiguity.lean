import GrowthAudit.Proofs.CppType.SubObjects

/-!
# Ambiguity never blames

What is not known is given the benefit of the doubt, so whoever knows less about a type may not be
told more against it.  The three classes are not monotone in any simple order: without a definition
`no` becomes `unknown`, and so does `yes`.  What is kept is one direction of one class only: *a
constructor that throws in the vaguer view throws in the sharper one*.

* `Softens R`: along the relation `R` types only get vaguer.  A type may lose its definition, a
  record may become trivially copyable, and specifications may become conditions that nobody
  evaluated; the rest corresponds.
* `Softens.contribution`, `Softens.throwing`, `Softens.degrades`: nothing more is blamed along such
  a relation.
* `CppType.BlursTo`: definitions hidden and specifications made unknown at any places of a type.
  `not_blamed_of_blursTo` is the statement for it.
-/

namespace GrowthAudit

/-- The same constructor, or the same with a condition that nobody evaluated. -/
def Ctor.BlursTo (c d : Ctor) : Prop := d = c ∨ d = { c with spec := .noexceptDependent }

namespace Ctor.BlursTo

variable {c d : Ctor}

theorem isMove (h : c.BlursTo d) : d.isMove = c.isMove := by
  rcases h with rfl | rfl <;> rfl

theorem isCopy (h : c.BlursTo d) : d.isCopy = c.isCopy := by
  rcases h with rfl | rfl <;> rfl

theorem isDeleted (h : c.BlursTo d) : d.isDeleted = c.isDeleted := by
  rcases h with rfl | rfl <;> rfl

/-- A constructor whose class is still to be derived, or that throws by itself, is not blurred. -/
theorem eq_of_spec_ne (h : c.BlursTo d) (hd : d.spec ≠ .noexceptDependent) : d = c := by
  rcases h with rfl | rfl
  · rfl
  · exact absurd rfl hd

end Ctor.BlursTo

theorem filter_usable_blursTo {a b : Option Ctor} (h : Option.Rel Ctor.BlursTo a b) :
    Option.Rel Ctor.BlursTo (a.filter (!·.isDeleted)) (b.filter (!·.isDeleted)) := by
  cases h with
  | none => exact .none
  | @some c d hcd =>
    rw [Option.filter_some, Option.filter_some, hcd.isDeleted]
    cases c.isDeleted with
    | true => exact .none
    | false => exact .some hcd

theorem or_blursTo {a b a' b' : Option Ctor} (h : Option.Rel Ctor.BlursTo a b)
    (h' : Option.Rel Ctor.BlursTo a' b') : Option.Rel Ctor.BlursTo (a.or a') (b.or b') := by
  cases h with
  | none => exact h'
  | some hcd => exact .some hcd

theorem exists_of_blursTo_some {a : Option Ctor} {d : Ctor}
    (h : Option.Rel Ctor.BlursTo a (some d)) : ∃ c, a = some c ∧ c.BlursTo d := by
  cases h with
  | some hcd => exact ⟨_, rfl, hcd⟩

theorem exists_of_some_blursTo {b : Option Ctor} {c : Ctor}
    (h : Option.Rel Ctor.BlursTo (some c) b) : ∃ d, b = some d ∧ c.BlursTo d := by
  cases h with
  | some hcd => exact ⟨_, rfl, hcd⟩

section

variable {r s : Record CppType} (h : List.Forall₂ Ctor.BlursTo r.ctors s.ctors)

include h

theorem Record.moveCtor?_blursTo : Option.Rel Ctor.BlursTo r.moveCtor? s.moveCtor? :=
  filter_usable_blursTo (find?_forall₂ (fun _ _ hcd => hcd.isMove.symm) h)

theorem Record.copyCtor?_blursTo : Option.Rel Ctor.BlursTo r.copyCtor? s.copyCtor? :=
  filter_usable_blursTo (find?_forall₂ (fun _ _ hcd => hcd.isCopy.symm) h)

theorem Record.transferCtor?_blursTo (moving : Bool) :
    Option.Rel Ctor.BlursTo (r.transferCtor? moving) (s.transferCtor? moving) := by
  refine or_blursTo ?_ (copyCtor?_blursTo h)
  cases moving with
  | false => exact .none
  | true => exact moveCtor?_blursTo h

end

/-! ### Relations along which types get vaguer -/

/-- How `u` may differ from `t` if it is to say no more against it.  Either it says nothing at all,
or both are records with corresponding constructors and sub-objects. -/
inductive SofterBy (R : CppType → CppType → Prop) (t u : CppType) : Prop
  | silent : u.isTrivial = true ∨ u.definition = none → SofterBy R t u
  | alike {r s : Record CppType} : t.isScalar = false → t.definition = some r →
      u.definition = some s → (r.isTrivial = true → s.isTrivial = true) →
      List.Forall₂ Ctor.BlursTo r.ctors s.ctors →
      List.Forall₂ (OnType R) r.subObjects s.subObjects → SofterBy R t u

def Softens (R : CppType → CppType → Prop) : Prop := ∀ t u, R t u → SofterBy R t u

/-- A softer view that says anything is one of a record that says it, too. -/
theorem SofterBy.exists_record {R : CppType → CppType → Prop} {t u : CppType} (h : SofterBy R t u)
    {s : Record CppType} (hu : u.isTrivial = false) (hs : u.definition = some s) :
    t.isTrivial = false ∧ ∃ r, t.definition = some r ∧
      List.Forall₂ Ctor.BlursTo r.ctors s.ctors ∧
      List.Forall₂ (OnType R) r.subObjects s.subObjects := by
  cases h with
  | silent h =>
    rcases h with h | h
    · cases h.symm.trans hu
    · cases hs.symm.trans h
  | @alike r s' ht hr hs' htriv hctors hsub =>
    obtain rfl : s' = s := Option.some.inj (hs'.symm.trans hs)
    rw [CppType.isTrivial_of_definition hs, Bool.or_eq_false_iff] at hu
    refine ⟨?_, r, hr, hctors, hsub⟩
    rw [CppType.isTrivial_of_definition hr, ht, Bool.false_or]
    exact Bool.eq_false_iff.mpr fun h => nomatch (htriv h).symm.trans hu.2

/-- The classes of corresponding constructors, as soon as corresponding sub-objects behave. -/
theorem throwing_of_subObjects {R : CppType → CppType → Prop} {r s : Record CppType}
    (hsub : List.Forall₂ (OnType R) r.subObjects s.subObjects)
    (hR : ∀ x ∈ r.subObjects, ∀ u, R x.1 u → ∀ moving,
      u.contribution moving = .yes → x.1.contribution moving = .yes)
    {c d : Ctor} (hcd : c.BlursTo d) (hd : d.throwing (some s) = .yes) :
    c.throwing (some r) = .yes := by
  rw [Ctor.throwing_eq_yes_iff] at hd ⊢
  have hspec : d.spec ≠ .noexceptDependent := by
    intro he
    rw [he] at hd
    rcases hd with h | ⟨h, _⟩ <;> cases h
  obtain rfl := hcd.eq_of_spec_ne hspec
  refine hd.imp_right fun ⟨he, ⟨u, isConst⟩, hu, hyes⟩ => ⟨he, ?_⟩
  obtain ⟨t, ht, htu⟩ := exists_subObject_of_mem hsub hu
  exact ⟨(t, isConst), ht, hR (t, isConst) ht u htu _ hyes⟩

namespace Softens

variable {R : CppType → CppType → Prop} (hR : Softens R)

include hR

/-- **A part that throws in the vaguer view throws in the sharper one**, by induction on the sharper
type. -/
theorem contribution {t u : CppType} (htu : R t u) (moving : Bool)
    (hu : u.contribution moving = .yes) : t.contribution moving = .yes := by
  induction t using CppType.inductionOnSubObjects generalizing u moving with
  | step t ih =>
    obtain ⟨hut, s, hs, d, hd, hyes⟩ := CppType.contribution_eq_yes_iff.mp hu
    obtain ⟨htt, r, hr, hctors, hsub⟩ := (hR t u htu).exists_record hut hs
    have hpick := Record.transferCtor?_blursTo hctors moving
    rw [hd] at hpick
    obtain ⟨c, hc, hcd⟩ := exists_of_blursTo_some hpick
    refine CppType.contribution_eq_yes_iff.mpr ⟨htt, r, hr, c, hc, ?_⟩
    exact throwing_of_subObjects hsub (fun x hx v hxv m hv => ih r hr x hx hxv m hv) hcd hyes

theorem throwing {r s : Record CppType} (hsub : List.Forall₂ (OnType R) r.subObjects s.subObjects)
    {c d : Ctor} (hcd : c.BlursTo d) (hd : d.throwing (some s) = .yes) :
    c.throwing (some r) = .yes :=
  throwing_of_subObjects hsub (fun _ _ _ hxu m hu => hR.contribution hxu m hu) hcd hd

theorem degrades {t u : CppType} (htu : R t u) (hu : u.degrades = true) : t.degrades = true := by
  obtain ⟨hut, s, hs, hmove⟩ := CppType.degrades_iff.mp hu
  obtain ⟨htt, r, hr, hctors, hsub⟩ := (hR t u htu).exists_record hut hs
  refine CppType.degrades_iff.mpr ⟨htt, r, hr, fun c hc => ?_⟩
  have hpick := Record.moveCtor?_blursTo hctors
  rw [hc] at hpick
  obtain ⟨d, hd, hcd⟩ := exists_of_some_blursTo hpick
  exact hR.throwing hsub hcd (hmove d hd)

end Softens

/-! ### Blurred types -/

/-- The same record with blurred constructors and with bases and members whose types are related.
The types of static members may be any. -/
inductive Record.BlursTo (R : CppType → CppType → Prop) : Record CppType → Record CppType → Prop
  | mk {name : String} {site : Location} {ctors ctors' : List Ctor}
      {fields fields' : List (Field CppType)} {bases bases' : List (Base CppType)}
      {isTrivial : Bool} :
      List.Forall₂ Ctor.BlursTo ctors ctors' → List.Forall₂ (Field.Retyped R) fields fields' →
      List.Forall₂ (Base.Retyped R) bases bases' →
      BlursTo R ⟨name, site, ctors, fields, bases, isTrivial⟩
        ⟨name, site, ctors', fields', bases', isTrivial⟩

/-- `t.BlursTo u`: at any places of `t` the definition of a record is hidden or the specification of
a constructor is made a condition that nobody evaluated, and the rest is as it was. -/
inductive CppType.BlursTo : CppType → CppType → Prop
  | bare {name : String} {kind : TypeKind} : BlursTo (.mk name kind none) (.mk name kind none)
  | hidden {name : String} {r : Record CppType} :
      BlursTo (.mk name .record (some r)) (.mk name .record none)
  | kept {name : String} {kind : TypeKind} {r s : Record CppType} :
      Record.BlursTo BlursTo r s → BlursTo (.mk name kind (some r)) (.mk name kind (some s))

theorem softens_blursTo : Softens CppType.BlursTo := by
  intro t u h
  cases h with
  | bare => exact .silent (Or.inr rfl)
  | hidden => exact .silent (Or.inr rfl)
  | @kept name kind r s hrs =>
    cases hk : kind.isScalar with
    | true => exact .silent (Or.inl (CppType.isTrivial_of_isScalar hk))
    | false =>
      cases hrs with
      | mk hctors hfields hbases =>
        exact .alike hk rfl rfl id hctors (Record.subObjects_forall₂ hbases hfields)

/-- **Ambiguity never blames.**  A type that degrades although definitions are hidden and
specifications are unknown degrades without that, too.  For two records that correspond, at any
depth, a constructor that throws in the blurred one throws in the other. -/
theorem not_blamed_of_blursTo :
    (∀ t u : CppType, t.BlursTo u → u.degrades = true → t.degrades = true) ∧
      ∀ r s : Record CppType, r.BlursTo CppType.BlursTo s → ∀ c d, (c, d) ∈ r.ctors.zip s.ctors →
        d.throwing (some s) = .yes → c.throwing (some r) = .yes := by
  refine ⟨fun t u h hu => softens_blursTo.degrades h hu, ?_⟩
  rintro _ _ ⟨hctors, hfields, hbases⟩ c d hcd hd
  exact softens_blursTo.throwing (Record.subObjects_forall₂ hbases hfields)
    (List.forall₂_zip hctors hcd) hd

/-! ### A blurred type that still degrades -/

namespace CppType

/-- The move constructor of the member `a` throws. -/
def sharpSample : CppType :=
  .complete
    { name := "Outer"
      ctors := [{ isMove := true, spec := .unevaluated }]
      fields := [
        { name := "a"
          type := .complete
            { name := "Inner"
              ctors := [{ isMove := true, spec := .noexceptFalse }, { isCopy := true }] } },
        { name := "b", type := .complete { name := "Gone" } }] }

/-- The copy constructor of `a` is unknown, and so is the type of `b`. -/
def blurredSample : CppType :=
  .complete
    { name := "Outer"
      ctors := [{ isMove := true, spec := .unevaluated }]
      fields := [
        { name := "a"
          type := .complete
            { name := "Inner"
              ctors := [{ isMove := true, spec := .noexceptFalse },
                { isCopy := true, spec := .noexceptDependent }] } },
        { name := "b", type := .incomplete "Gone" }] }

theorem sharpSample_blursTo : sharpSample.BlursTo blurredSample :=
  .kept (.mk (.cons (Or.inl rfl) .nil)
    (.cons (.mk fun _ => .kept (.mk (.cons (Or.inl rfl) (.cons (Or.inr rfl) .nil)) .nil .nil))
      (.cons (.mk fun _ => .hidden) .nil)) .nil)

end CppType

theorem not_blamed_of_blursTo_sample :
    CppType.sharpSample.BlursTo CppType.blurredSample ∧ CppType.sharpSample ≠ CppType.blurredSample ∧
      CppType.blurredSample.degrades = true ∧ CppType.sharpSample.degrades = true := by
  refine ⟨CppType.sharpSample_blursTo, ?_, by decide, ?_⟩
  · intro h
    simp [CppType.sharpSample, CppType.blurredSample, CppType.complete, CppType.incomplete] at h
  · exact not_blamed_of_blursTo.1 _ _ CppType.sharpSample_blursTo (by decide)

end GrowthAudit
