import GrowthAudit.Proofs.CppType.Blame
import GrowthAudit.Proofs.CppType.Congruence

/-!
# The order of declaration

The order in which a record declares its bases and members decides what an explanation blames, and
nothing else: the verdict looks for the worst of all sub-objects.

* `CppType.ReordersTo`: bases and members put into another order at any places of a type.
* `judged_alike_of_reordersTo`: a type and its reorderings are judged alike.
-/

namespace GrowthAudit

/-- The same record with its bases and members in another order, and with related types of these.
The types of static members may be any. -/
inductive Record.ReordersTo (R : CppType → CppType → Prop) : Record CppType → Record CppType → Prop
  | mk {name : String} {site : Location} {ctors : List Ctor} {isTrivial : Bool}
      {fields retyped fields' : List (Field CppType)}
      {bases retypedBases bases' : List (Base CppType)} :
      List.Forall₂ (Field.Retyped R) fields retyped → retyped.Perm fields' →
      List.Forall₂ (Base.Retyped R) bases retypedBases → retypedBases.Perm bases' →
      ReordersTo R ⟨name, site, ctors, fields, bases, isTrivial⟩
        ⟨name, site, ctors, fields', bases', isTrivial⟩

/-- `t.ReordersTo u`: at any places of `t` the bases and the members of a record are put into
another order, and the rest is as it was. -/
inductive CppType.ReordersTo : CppType → CppType → Prop
  | bare {name : String} {kind : TypeKind} : ReordersTo (.mk name kind none) (.mk name kind none)
  | defined {name : String} {kind : TypeKind} {r s : Record CppType} :
      Record.ReordersTo ReordersTo r s →
        ReordersTo (.mk name kind (some r)) (.mk name kind (some s))

theorem CppType.ReordersTo.refl (t : CppType) : t.ReordersTo t := by
  induction t using CppType.inductionOn with
  | step name kind definition ih =>
    cases definition with
    | none => exact .bare
    | some r =>
      obtain ⟨hf, hb⟩ := ih r rfl
      exact .defined (.mk (Field.retyped_same hf) (.refl _) (Base.retyped_same hb) (.refl _))

theorem Record.subObjects_perm {r s : Record τ} (hbases : r.bases.Perm s.bases)
    (hfields : r.fields.Perm s.fields) : r.subObjects.Perm s.subObjects :=
  (hbases.map _).append ((hfields.filter _).map _)

theorem Record.ReordersTo.matching {R : CppType → CppType → Prop} {r s : Record CppType}
    (h : r.ReordersTo R s) : r.Matches R s := by
  cases h with
  | @mk name site ctors isTrivial fields retyped fields' bases retypedBases bases' hf hpf hb hpb =>
    let between : Record CppType := ⟨name, site, ctors, retyped, retypedBases, isTrivial⟩
    refine ⟨rfl, rfl, between.subObjects, subObjects_forall₂ hb hf, ?_⟩
    exact subObjects_perm hpb hpf

theorem congruent_reordersTo : Congruent CppType.ReordersTo := by
  intro t u h
  cases h with
  | bare => exact .bare
  | defined h => exact .defined h.matching

/-- **The order of declaration does not matter for the verdict.**  A type and any reordering of it
both degrade or neither does, and in two records that correspond, at any depth, each constructor is
of the same class. -/
theorem judged_alike_of_reordersTo :
    (∀ t u : CppType, t.ReordersTo u → t.degrades = u.degrades) ∧
      ∀ r s : Record CppType, r.ReordersTo CppType.ReordersTo s →
        r.hasSafeMove = s.hasSafeMove ∧
          ∀ c : Ctor, c.throwing (some r) = c.throwing (some s) := by
  refine ⟨fun t u h => congruent_reordersTo.degrades h, fun r s h => ⟨?_, fun c => ?_⟩⟩
  · exact congruent_reordersTo.hasSafeMove h.matching
  · exact congruent_reordersTo.throwing h.matching c

/-! ### A type in two orders -/

namespace CppType

def throwingSample (name : String) : CppType :=
  .complete { name, ctors := [{ isMove := true, isUserProvided := true }] }

/-- `struct Pair : Left, Right { First a; static int count; Middle b; };` where `Middle` has the
members `Second p; int n;`. -/
def declaredSample : CppType :=
  .complete
    { name := "Pair"
      ctors := [Record.impliedMove]
      bases := [{ type := throwingSample "Left" }, { type := throwingSample "Right" }]
      fields := [
        { name := "a", type := throwingSample "First" },
        { name := "count", type := .builtin "int", isOwn := false },
        { name := "b"
          type := .complete
            { name := "Middle"
              ctors := [Record.impliedMove]
              fields := [{ name := "p", type := throwingSample "Second" },
                { name := "n", type := .builtin "int" }] } }] }

/-- The same with all bases and members in the opposite order. -/
def reversedSample : CppType :=
  .complete
    { name := "Pair"
      ctors := [Record.impliedMove]
      bases := [{ type := throwingSample "Right" }, { type := throwingSample "Left" }]
      fields := [
        { name := "b"
          type := .complete
            { name := "Middle"
              ctors := [Record.impliedMove]
              fields := [{ name := "n", type := .builtin "int" },
                { name := "p", type := throwingSample "Second" }] } },
        { name := "count", type := .builtin "int", isOwn := false },
        { name := "a", type := throwingSample "First" }] }

theorem declaredSample_reordersTo : declaredSample.ReordersTo reversedSample := by
  have hmiddle : ∀ p n : Field CppType, ReordersTo
      (.complete { name := "Middle", ctors := [Record.impliedMove], fields := [p, n] })
      (.complete { name := "Middle", ctors := [Record.impliedMove], fields := [n, p] }) :=
    fun p n => .defined (.mk (Field.retyped_same fun f _ => .refl f.type) (.swap _ _ _) .nil .nil)
  exact .defined (.mk
    (.cons (.mk fun _ => .refl _) (.cons (.mk fun _ => .refl _)
      (.cons (.mk fun _ => hmiddle _ _) .nil)))
    (List.reverse_perm _).symm (Base.retyped_same fun b _ => .refl b.type) (.swap _ _ _))

end CppType

/-- Both orders degrade, for different reasons. -/
theorem judged_alike_of_reordersTo_sample :
    CppType.declaredSample.ReordersTo CppType.reversedSample ∧
      CppType.declaredSample.degrades = true ∧ CppType.reversedSample.degrades = true ∧
      (CppType.declaredSample.explain 1 3).map (·.blamed.name) = ["a", "First"] ∧
      (CppType.reversedSample.explain 1 3).map (·.blamed.name) = ["b", "p", "Second"] := by
  have hreorders := CppType.declaredSample_reordersTo
  have hdegrades : CppType.declaredSample.degrades = true := by decide
  refine ⟨hreorders, hdegrades, ?_, by decide, by decide⟩
  rw [← judged_alike_of_reordersTo.1 _ _ hreorders]
  exact hdegrades

end GrowthAudit
