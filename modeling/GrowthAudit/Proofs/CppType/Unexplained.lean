import GrowthAudit.Proofs.CppType.Blame

/-!
# Records that degrade and blame nothing

An explanation may be empty although the record degrades.  There are three reasons, of which just
one applies (`Record.existsUnique_gap`): nothing moves the record, its move constructor is written
to throw without being user provided, or the parts that throw are all of a sort that is never
blamed.

The last case is where an explanation and a verdict look at a part differently: a virtual base is
passed over, and a constant member is blamed for its move constructor and throws by its copy
constructor.
-/

namespace GrowthAudit

/-- Why a record that degrades blames nothing. -/
inductive Gap where
  | nothingMoves
  | writtenToThrow
  | passedOver
  deriving DecidableEq, Repr

namespace Record

variable {r : Record CppType}

/-- The bases that throw when the record is moved. -/
def ThrowingBase (r : Record CppType) (b : Base CppType) : Prop :=
  b ∈ r.bases ∧ b.type.contribution true = .yes

/-- The own members that throw when the record is moved. -/
def ThrowingField (r : Record CppType) (f : Field CppType) : Prop :=
  f ∈ r.fields ∧ f.isOwn = true ∧ f.type.contribution (!f.isConst) = .yes

/-- What each reason says of the record. -/
def HasGap (r : Record CppType) : Gap → Prop
  | .nothingMoves => r.moveCtor? = none
  | .writtenToThrow => ∃ c, r.moveCtor? = some c ∧ c.isUserProvided = false ∧
      c.spec.written? = some .yes
  | .passedOver => ∃ c, r.moveCtor? = some c ∧ c.isUserProvided = false ∧ c.spec = .unevaluated ∧
      ((∃ b, r.ThrowingBase b) ∨ ∃ f, r.ThrowingField f) ∧
      (∀ b, r.ThrowingBase b → b.isVirtual = true) ∧
      ∀ f, r.ThrowingField f → f.isConst = true ∧ f.type.HasSafeMove

theorem exists_throwingPart {s : CppType × Bool} (hs : s ∈ r.subObjects)
    (hyes : s.1.contribution (!s.2) = .yes) :
    (∃ b, r.ThrowingBase b) ∨ ∃ f, r.ThrowingField f := by
  rcases mem_subObjects.mp hs with ⟨b, hb, rfl⟩ | ⟨f, hf, hown, rfl⟩
  · exact Or.inl ⟨b, hb, hyes⟩
  · exact Or.inr ⟨f, hf, hown, hyes⟩

/-- A base that throws and is not blamed is virtual. -/
theorem isVirtual_of_throwingBase (hnone : r.degradingBase? = none) {b : Base CppType}
    (hb : r.ThrowingBase b) : b.isVirtual = true := by
  obtain ⟨hmem, hyes⟩ := hb
  rcases CppType.degrades_or_of_contribution hyes with hdeg | ⟨hmoving, -⟩
  · by_contra hvirtual
    rw [Bool.not_eq_true] at hvirtual
    cases hdeg.symm.trans (degradingBase?_eq_none_iff.mp hnone b hmem hvirtual)
  · cases hmoving

/-- A member that throws and is not blamed is copied although it could be moved safely. -/
theorem isConst_of_throwingField (hnone : r.degradingField? = none) {f : Field CppType}
    (hf : r.ThrowingField f) : f.isConst = true ∧ f.type.HasSafeMove := by
  obtain ⟨hmem, hown, hyes⟩ := hf
  rcases CppType.degrades_or_of_contribution hyes with hdeg | ⟨hmoving, hsafe⟩
  · cases hdeg.symm.trans (degradingField?_eq_none_iff.mp hnone f hmem hown)
  · rw [Bool.not_eq_false'] at hmoving
    exact ⟨hmoving, hsafe⟩

/-- **A record that degrades and blames nothing has just one reason for it.** -/
theorem existsUnique_gap {t : CppType} (hdeg : t.degrades = true) (hr : t.definition = some r)
    (hcause : r.firstCause? = none) : ∃! g, r.HasGap g := by
  obtain ⟨-, s, hs, hmove⟩ := CppType.degrades_iff.mp hdeg
  obtain rfl := Option.some.inj (hr.symm.trans hs)
  rw [firstCause?_eq, Option.map_eq_none_iff, suspect?_eq_none_iff] at hcause
  obtain ⟨huser, hfield, hbase⟩ := hcause
  cases hc : r.moveCtor? with
  | none =>
    refine ⟨.nothingMoves, hc, fun g hg => ?_⟩
    cases g with
    | nothingMoves => rfl
    | writtenToThrow | passedOver =>
      obtain ⟨_, hc', -⟩ := hg
      cases hc.symm.trans hc'
  | some c =>
    have hyes := hmove c hc
    have hprovided : c.isUserProvided = false := by
      by_contra h
      rw [Bool.not_eq_false] at h
      rw [throwingUserMove?_of_isUserProvided hc h, if_pos hyes] at huser
      cases huser
    rcases Ctor.throwing_eq_yes_iff.mp hyes with hw | ⟨hspec, part, hpart, hthrows⟩
    · refine ⟨.writtenToThrow, ⟨c, hc, hprovided, hw⟩, fun g hg => ?_⟩
      cases g with
      | writtenToThrow => rfl
      | nothingMoves => cases hc.symm.trans hg
      | passedOver =>
        obtain ⟨_, hc', -, hspec, -⟩ := hg
        obtain rfl := Option.some.inj (hc.symm.trans hc')
        cases hw.symm.trans (ExceptionSpec.written?_eq_none.mpr hspec)
    · rw [isMove_of_moveCtor? hc, Bool.true_and] at hthrows
      refine ⟨.passedOver, ⟨c, hc, hprovided, hspec, exists_throwingPart hpart hthrows,
        fun b hb => isVirtual_of_throwingBase hbase hb,
        fun f hf => isConst_of_throwingField hfield hf⟩, fun g hg => ?_⟩
      cases g with
      | passedOver => rfl
      | nothingMoves => cases hc.symm.trans hg
      | writtenToThrow =>
        obtain ⟨_, hc', -, hw⟩ := hg
        obtain rfl := Option.some.inj (hc.symm.trans hc')
        cases hw.symm.trans (ExceptionSpec.written?_eq_none.mpr hspec)

/-! ### A virtual base and a constant member -/

/-- A record that moves safely and whose copy constructor throws. -/
def safelyMovedSample : CppType :=
  .complete
    { name := "SafelyMoved"
      ctors := [{ isMove := true, isUserProvided := true, spec := .noexceptPlain },
        { isCopy := true, isUserProvided := true }] }

/-- `struct S : virtual Moved { const SafelyMoved a; };` -/
def passedOverSample : Record CppType :=
  { name := "S", ctors := [impliedMove]
    fields := [{ name := "a", type := safelyMovedSample, isConst := true }]
    bases := [{ type := movedSample, isVirtual := true }] }

theorem existsUnique_gap_sample :
    (CppType.complete passedOverSample).degrades = true ∧ passedOverSample.firstCause? = none ∧
      passedOverSample.ThrowingBase { type := movedSample, isVirtual := true } ∧
      passedOverSample.ThrowingField { name := "a", type := safelyMovedSample, isConst := true } ∧
      ∃! g, passedOverSample.HasGap g := by
  have hdeg : (CppType.complete passedOverSample).degrades = true := by decide
  refine ⟨hdeg, rfl, ⟨List.mem_singleton_self _, by decide⟩,
    ⟨List.mem_singleton_self _, rfl, by decide⟩, ?_⟩
  exact existsUnique_gap hdeg rfl rfl

end Record

end GrowthAudit
