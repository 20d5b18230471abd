import GrowthAudit.Diagnostic.OfFinding
import GrowthAudit.Proofs.CppType.Blame
import GrowthAudit.Proofs.CppType.Congruence

/-!
# Static members

A static member is no part of its record.  It is passed over where the verdict collects the
sub-objects and where an explanation looks for a member to blame, so deleting static members at any
depth changes neither.

* `CppType.TrimsTo`: static members deleted at any places of a type.
* `Record.TrimsTo.firstCause?`: a record and what is left of it blame the same, up to the types that
  are trimmed inside.
* `Blamed.Retyped`, `CauseStep.Retyped`, `CppType.trace_retyped`: explanations along a relation for
  which this holds.
* `judged_alike_of_trimsTo`: the verdict and the explanation do not see static members.
-/

namespace GrowthAudit

/-! ### Explanations with other types -/

/-- The same blame, of a type that may be another one. -/
inductive Blamed.Retyped (R : CppType → CppType → Prop) : Blamed → Blamed → Prop
  | ctor {name : String} {location : Location} :
      Retyped R (.ctor name location) (.ctor name location)
  | field {name : String} {location : Location} {t u : CppType} : R t u →
      Retyped R (.field name location t) (.field name location u)
  | base {location : Location} {t u : CppType} : t.name = u.name → R t u →
      Retyped R (.base location t) (.base location u)

/-- The same step with a blamed type that may be another one. -/
inductive CauseStep.Retyped (R : CppType → CppType → Prop) : CauseStep → CauseStep → Prop
  | mk {record : String} {site : Location} {b b' : Blamed} : b.Retyped R b' →
      Retyped R ⟨record, site, b⟩ ⟨record, site, b'⟩

section

variable {R : CppType → CppType → Prop}

/-- Nothing is shown of the blamed type but its name. -/
theorem CauseStep.Retyped.evidence {step step' : CauseStep} (h : step.Retyped R step') :
    step.evidence = step'.evidence := by
  obtain ⟨hblamed⟩ := h
  cases hblamed with
  | ctor => rfl
  | field _ => rfl
  | base hname _ => simp only [CauseStep.evidence, Blamed.name, Blamed.rule, Blamed.location, hname]

/-- **Explanations correspond** if first causes do, by induction on how far they may go. -/
theorem CppType.trace_retyped
    (hR : ∀ t u, R t u → Option.Rel (CauseStep.Retyped R) t.cause? u.cause?) {t u : CppType}
    (htu : R t u) (further : Nat) :
    List.Forall₂ (CauseStep.Retyped R) (t.trace further) (u.trace further) := by
  induction further generalizing t u with
  | zero =>
    rw [trace, trace]
    have hcause := hR t u htu
    generalize t.cause? = cause at hcause ⊢
    generalize u.cause? = cause' at hcause ⊢
    cases hcause with
    | none => exact .nil
    | some hstep => exact .cons hstep .nil
  | succ further ih =>
    rw [trace, trace]
    have hcause := hR t u htu
    generalize t.cause? = cause at hcause ⊢
    generalize u.cause? = cause' at hcause ⊢
    cases hcause with
    | none => exact .nil
    | some hstep =>
      refine .cons hstep ?_
      obtain ⟨hblamed⟩ := hstep
      cases hblamed with
      | ctor => exact .nil
      | field htu => exact ih htu
      | base _ htu => exact ih htu

end

/-! ### Trimmed types -/

/-- The same members without some of the static ones, and with related types. -/
inductive Field.TrimsTo (R : τ → σ → Prop) : List (Field τ) → List (Field σ) → Prop
  | nil : TrimsTo R [] []
  | kept {f : Field τ} {g : Field σ} {fs : List (Field τ)} {gs : List (Field σ)} :
      Field.Retyped R f g → TrimsTo R fs gs → TrimsTo R (f :: fs) (g :: gs)
  | deleted {f : Field τ} {fs : List (Field τ)} {gs : List (Field σ)} :
      f.isOwn = false → TrimsTo R fs gs → TrimsTo R (f :: fs) gs

/-- The same record without some of its static members, and with related types of the bases and
members.  The types of static members may be any. -/
inductive Record.TrimsTo (R : CppType → CppType → Prop) : Record CppType → Record CppType → Prop
  | mk {name : String} {site : Location} {ctors : List Ctor} {isTrivial : Bool}
      {fields fields' : List (Field CppType)} {bases bases' : List (Base CppType)} :
      Field.TrimsTo R fields fields' → List.Forall₂ (Base.Retyped R) bases bases' →
      TrimsTo R ⟨name, site, ctors, fields, bases, isTrivial⟩
        ⟨name, site, ctors, fields', bases', isTrivial⟩

/-- `t.TrimsTo u`: at any places of `t` static members of a record are deleted, and the rest is as
it was. -/
inductive CppType.TrimsTo : CppType → CppType → Prop
  | bare {name : String} {kind : TypeKind} : TrimsTo (.mk name kind none) (.mk name kind none)
  | defined {name : String} {kind : TypeKind} {r s : Record CppType} :
      Record.TrimsTo TrimsTo r s → TrimsTo (.mk name kind (some r)) (.mk name kind (some s))

theorem Record.degradingField?_eq (r : Record CppType) :
    r.degradingField? = (r.fields.filter (·.isOwn)).find? (·.type.degrades) := by
  rw [List.find?_filter, degradingField?]
  simp only [Bool.decide_and, Bool.decide_eq_true]

section

variable {R : CppType → CppType → Prop}

/-- The own members are all there. -/
theorem Field.TrimsTo.own {fs gs : List (Field CppType)} (h : Field.TrimsTo R fs gs) :
    List.Forall₂ (fun f g => f.Retyped R g ∧ R f.type g.type)
      (fs.filter (·.isOwn)) (gs.filter (·.isOwn)) := by
  induction h with
  | nil => exact .nil
  | kept hfield _ ih =>
    obtain ⟨hR⟩ := hfield
    rename_i name t u isOwn isConst location
    cases isOwn with
    | true => exact .cons ⟨.mk hR, hR rfl⟩ ih
    | false => exact ih
  | deleted hown _ ih =>
    rw [List.filter_cons_of_neg (by simp [hown])]
    exact ih

namespace Record.TrimsTo

variable {r s : Record CppType} (h : r.TrimsTo R s)

include h

theorem matching : r.Matches R s := by
  obtain ⟨hfields, hbases⟩ := h
  refine ⟨rfl, rfl, _, List.rel_append (Base.parts_forall₂ hbases) ?_, .refl _⟩
  rw [List.forall₂_map_left_iff, List.forall₂_map_right_iff]
  refine hfields.own.imp ?_
  rintro _ _ ⟨⟨-⟩, htu⟩
  exact .mk htu

variable (hR : Congruent R)

include hR

theorem throwingUserMove? : r.throwingUserMove? = s.throwingUserMove? := by
  rw [Record.throwingUserMove?, Record.throwingUserMove?, h.matching.ctors]
  simp only [hR.throwing h.matching]

/-- The first own member that degrades is not a static one, so it is still there. -/
theorem degradingField? :
    Option.Rel (fun f g => f.Retyped R g ∧ R f.type g.type)
      r.degradingField? s.degradingField? := by
  obtain ⟨hfields, -⟩ := h
  rw [degradingField?_eq, degradingField?_eq]
  exact find?_forall₂ (fun f g hfg => hR.degrades hfg.2) hfields.own

theorem degradingBase? :
    Option.Rel (Base.Retyped R) r.degradingBase? s.degradingBase? := by
  obtain ⟨-, hbases⟩ := h
  refine find?_forall₂ ?_ hbases
  rintro _ _ ⟨htu⟩
  rw [hR.degrades htu]

/-- **A record and what is left of it blame the same.** -/
theorem firstCause? (hname : ∀ t u, R t u → t.name = u.name) :
    Option.Rel (CauseStep.Retyped R) r.firstCause? s.firstCause? := by
  have huser := h.throwingUserMove? hR
  have hfield := h.degradingField? hR
  have hbase := h.degradingBase? hR
  have hheading : r.name = s.name ∧ r.site = s.site := by
    obtain ⟨-, -⟩ := h
    exact ⟨rfl, rfl⟩
  rw [Record.firstCause?, Record.firstCause?, Record.blamed?, Record.blamed?, huser, hheading.1,
    hheading.2]
  generalize r.degradingField? = field at hfield ⊢
  generalize s.degradingField? = field' at hfield ⊢
  generalize r.degradingBase? = base at hbase ⊢
  generalize s.degradingBase? = base' at hbase ⊢
  cases s.throwingUserMove? with
  | some c => exact .some (.mk .ctor)
  | none =>
    cases hfield with
    | some hfg =>
      obtain ⟨⟨-⟩, htu⟩ := hfg
      exact .some (.mk (.field htu))
    | none =>
      cases hbase with
      | some hb =>
        obtain ⟨htu⟩ := hb
        exact .some (.mk (.base (hname _ _ htu) htu))
      | none => exact .none

end Record.TrimsTo

end

namespace CppType

theorem congruent_trimsTo : Congruent TrimsTo := by
  intro t u h
  cases h with
  | bare => exact .bare
  | defined h => exact .defined h.matching

theorem TrimsTo.name_eq {t u : CppType} (h : t.TrimsTo u) : t.name = u.name := by
  cases h with
  | bare => rfl
  | defined _ => rfl

theorem TrimsTo.cause? {t u : CppType} (h : t.TrimsTo u) :
    Option.Rel (CauseStep.Retyped TrimsTo) t.cause? u.cause? := by
  cases h with
  | bare => exact .none
  | defined h => exact h.firstCause? congruent_trimsTo fun _ _ => TrimsTo.name_eq

theorem TrimsTo.evidence_explain {t u : CppType} (h : t.TrimsTo u) (depth maxDepth : Int) :
    (t.explain depth maxDepth).map (·.evidence) = (u.explain depth maxDepth).map (·.evidence) := by
  have hsteps := trace_retyped (fun _ _ => TrimsTo.cause?) h (maxDepth - depth).toNat
  rw [← List.forall₂_eq_eq_eq, List.forall₂_map_left_iff, List.forall₂_map_right_iff]
  exact hsteps.imp fun _ _ hstep => hstep.evidence

end CppType

/-- **Static members are not seen.**  A type and what is left of it without any static members of it
or inside it both degrade or neither does, and have the same explanation at any depth.  In two
records that correspond, at any depth, each constructor is of the same class. -/
theorem judged_alike_of_trimsTo :
    (∀ t u : CppType, t.TrimsTo u → t.degrades = u.degrades ∧ ∀ depth maxDepth : Int,
      (t.explain depth maxDepth).map (·.evidence) = (u.explain depth maxDepth).map (·.evidence)) ∧
      ∀ r s : Record CppType, r.TrimsTo CppType.TrimsTo s →
        ∀ c : Ctor, c.throwing (some r) = c.throwing (some s) := by
  refine ⟨fun t u h => ⟨?_, fun depth maxDepth => ?_⟩, fun r s h c => ?_⟩
  · exact CppType.congruent_trimsTo.degrades h
  · exact h.evidence_explain depth maxDepth
  · exact CppType.congruent_trimsTo.throwing h.matching c

namespace CppType

/-- `struct Middle { Moved a; }; struct Outer { Middle m; };`, with further members in front. -/
def frontedSample (middleFront outerFront : List (Field CppType)) : CppType :=
  let middle := complete
    { name := "Middle", ctors := [Record.impliedMove]
      fields := middleFront ++ [{ name := "a", type := Record.movedSample }] }
  complete
    { name := "Outer", ctors := [Record.impliedMove]
      fields := outerFront ++ [{ name := "m", type := middle }] }

/-- `static Moved s;` -/
def staticSample : Field CppType := { name := "s", type := Record.movedSample, isOwn := false }

theorem frontedSample_trimsTo :
    (frontedSample [staticSample] [staticSample]).TrimsTo (frontedSample [] []) := by
  have hmoved : Record.movedSample.TrimsTo Record.movedSample := .defined (.mk .nil .nil)
  have hmiddle : Field.TrimsTo TrimsTo [staticSample, { name := "a", type := Record.movedSample }]
      [{ name := "a", type := Record.movedSample }] :=
    .deleted rfl (.kept (.mk fun _ => hmoved) .nil)
  exact .defined (.mk
    (.deleted rfl (.kept (.mk fun _ => .defined (.mk hmiddle .nil)) .nil)) .nil)

end CppType

/-- The static members at both depths degrade, and neither is blamed. -/
theorem judged_alike_of_trimsTo_sample :
    (CppType.frontedSample [CppType.staticSample] [CppType.staticSample]).TrimsTo
        (CppType.frontedSample [] []) ∧
      CppType.staticSample.type.degrades = true ∧
      (CppType.frontedSample [CppType.staticSample] [CppType.staticSample]).degrades = true ∧
      ((CppType.frontedSample [CppType.staticSample] [CppType.staticSample]).explain 1 3).map
        (·.evidence.blamed) = ["m", "a", "Moved"] := by
  have htrims := CppType.frontedSample_trimsTo
  obtain ⟨hdegrades, hexplain⟩ := judged_alike_of_trimsTo.1 _ _ htrims
  have hblamed := congrArg (List.map EvidenceStep.blamed) (hexplain 1 3)
  rw [List.map_map, List.map_map] at hblamed
  refine ⟨htrims, by decide, ?_, ?_⟩
  · rw [hdegrades]
    decide
  · exact hblamed.trans (by decide)

end GrowthAudit
