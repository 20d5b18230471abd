import GrowthAudit.CppType.Cause
import GrowthAudit.Proofs.CppType.SubObjects

/-!
# What is blamed and what throws

The verdict on a record and its explanation ask different questions about a part.  A constructor
with an implied specification throws if some part is made by a constructor that throws; the
explanation names the first part whose type degrades.  The two agree on a part that is moved by a
move constructor of its own, and this file says what happens to the others.

* `Suspect`: what can be blamed, with all that is known about it.  `Record.suspect?` is what a
  record blames (`Record.firstCause?_eq`).
* `CppType.contribution_iff_of_degrades` and `CppType.degrades_or_of_contribution`: how the two
  questions are related for one type.
* `Record.suspect_responsible_iff`: when what is blamed is a reason for the verdict.
-/

namespace GrowthAudit

/-! ### What a record blames -/

/-- A constructor, a member or a base that a record blames. -/
inductive Suspect where
  | ctor (c : Ctor)
  | field (f : Field CppType)
  | base (b : Base CppType)

/-- What an explanation shows of a suspect in the record of the given name. -/
def Suspect.blamed (record : String) : Suspect → Blamed
  | ctor c => .ctor (if c.name = "" then record else c.name) c.location
  | field f => .field f.name f.location f.type
  | base b => .base b.location b.type

namespace Record

variable {r : Record CppType}

/-- What a record blames, by the first rule that applies. -/
def suspect? (r : Record CppType) : Option Suspect :=
  (r.throwingUserMove?.map .ctor).or
    ((r.degradingField?.map .field).or (r.degradingBase?.map .base))

theorem firstCause?_eq (r : Record CppType) :
    r.firstCause? = r.suspect?.map fun s => ⟨r.name, r.site, s.blamed r.name⟩ := by
  rw [firstCause?, blamed?, suspect?]
  cases r.throwingUserMove? with
  | some c => rfl
  | none =>
    cases r.degradingField? with
    | some f => rfl
    | none => cases r.degradingBase? <;> rfl

theorem suspect?_eq_some_iff {s : Suspect} :
    r.suspect? = some s ↔
      match s with
      | .ctor c => r.throwingUserMove? = some c
      | .field f => r.throwingUserMove? = none ∧ r.degradingField? = some f
      | .base b => r.throwingUserMove? = none ∧ r.degradingField? = none ∧
          r.degradingBase? = some b := by
  rw [suspect?]
  cases s <;> cases r.throwingUserMove? <;> cases r.degradingField? <;> simp

theorem suspect?_eq_none_iff :
    r.suspect? = none ↔
      r.throwingUserMove? = none ∧ r.degradingField? = none ∧ r.degradingBase? = none := by
  rw [suspect?]
  simp

theorem degradingField?_eq_none_iff :
    r.degradingField? = none ↔ ∀ f ∈ r.fields, f.isOwn = true → f.type.degrades = false := by
  simp [degradingField?, List.find?_eq_none]

theorem degradingBase?_eq_none_iff :
    r.degradingBase? = none ↔ ∀ b ∈ r.bases, b.isVirtual = false → b.type.degrades = false := by
  simp [degradingBase?, List.find?_eq_none]

theorem degrades_of_degradingField? {f : Field CppType} (h : r.degradingField? = some f) :
    f.type.degrades = true := by
  have hfound := List.find?_some h
  exact (Bool.and_eq_true_iff.mp hfound).2

theorem degrades_of_degradingBase? {b : Base CppType} (h : r.degradingBase? = some b) :
    b.type.degrades = true := by
  have hfound := List.find?_some h
  exact (Bool.and_eq_true_iff.mp hfound).2

theorem isMove_of_moveCtor? {c : Ctor} (h : r.moveCtor? = some c) : c.isMove = true :=
  List.find?_some (Option.filter_eq_some_iff.mp h).1

/-- The first move constructor that is user provided is the first move constructor, if that one
is. -/
theorem throwingUserMove?_of_isUserProvided {c : Ctor} (hc : r.moveCtor? = some c)
    (huser : c.isUserProvided = true) :
    r.throwingUserMove? = if c.throwing (some r) = .yes then some c else none := by
  obtain ⟨hfind, -⟩ := Option.filter_eq_some_iff.mp hc
  obtain ⟨hmove, before, after, hctors, hbefore⟩ := List.find?_eq_some_iff_append.mp hfind
  have hfirst : r.ctors.find? (fun c => c.isMove && c.isUserProvided) = some c := by
    refine List.find?_eq_some_iff_append.mpr ⟨by rw [hmove, huser]; rfl, before, after, hctors, ?_⟩
    intro d hd
    have hd := hbefore d hd
    rw [Bool.not_eq_true'] at hd
    rw [hd]
    rfl
  rw [throwingUserMove?, hfirst, Option.filter_some]
  cases c.throwing (some r) <;> rfl

theorem isUserProvided_of_throwingUserMove? {c : Ctor} (h : r.throwingUserMove? = some c) :
    c.isUserProvided = true := by
  have hfound := List.find?_some (Option.filter_eq_some_iff.mp h).1
  exact (Bool.and_eq_true_iff.mp hfound).2

end Record

/-! ### Degrading and throwing as a part -/

/-- The definition has a usable move constructor. -/
def CppType.HasMove (t : CppType) : Prop := ∃ r c, t.definition = some r ∧ r.moveCtor? = some c

/-- The definition has a usable copy constructor, and that one throws. -/
def CppType.CopyThrows (t : CppType) : Prop :=
  ∃ r c, t.definition = some r ∧ r.copyCtor? = some c ∧ c.throwing (some r) = .yes

/-- The definition has a usable move constructor that is not known to throw. -/
def CppType.HasSafeMove (t : CppType) : Prop := ∃ r, t.definition = some r ∧ r.hasSafeMove = true

namespace Record

variable {r : Record CppType}

theorem transferCtor?_of_moves {c : Ctor} (h : r.moveCtor? = some c) :
    r.transferCtor? true = some c := by
  rw [transferCtor?, if_pos rfl, h, Option.some_or]

theorem transferCtor?_of_copies {moving : Bool} (h : moving = true → r.moveCtor? = none) :
    r.transferCtor? moving = r.copyCtor? := by
  rw [transferCtor?]
  cases moving with
  | false => rfl
  | true => rw [if_pos rfl, h rfl, Option.none_or]

end Record

namespace CppType

variable {t : CppType} {moving : Bool}

/-- A type that is copied as a part throws if its copy constructor does. -/
theorem contribution_iff_of_copies {r : Record CppType} (htriv : t.isTrivial = false)
    (hr : t.definition = some r) (h : moving = true → r.moveCtor? = none) :
    t.contribution moving = .yes ↔ t.CopyThrows := by
  rw [contribution_eq_yes_iff]
  constructor
  · rintro ⟨-, s, hs, c, hc, hyes⟩
    obtain rfl := Option.some.inj (hr.symm.trans hs)
    rw [Record.transferCtor?_of_copies h] at hc
    exact ⟨r, c, hr, hc, hyes⟩
  · rintro ⟨s, c, hs, hc, hyes⟩
    obtain rfl := Option.some.inj (hr.symm.trans hs)
    refine ⟨htriv, r, hr, c, ?_, hyes⟩
    rwa [Record.transferCtor?_of_copies h]

/-- **A type that degrades throws as a part** if its own move constructor moves it there; else only
if its copy constructor throws. -/
theorem contribution_iff_of_degrades (h : t.degrades = true) :
    t.contribution moving = .yes ↔ moving = true ∧ t.HasMove ∨ t.CopyThrows := by
  obtain ⟨htriv, r, hr, hmove⟩ := degrades_iff.mp h
  by_cases hmoves : moving = true ∧ t.HasMove
  · rw [iff_true_intro (Or.inl hmoves), iff_true]
    obtain ⟨rfl, s, c, hs, hc⟩ := hmoves
    obtain rfl := Option.some.inj (hr.symm.trans hs)
    exact contribution_eq_yes_iff.mpr ⟨htriv, r, hr, c, Record.transferCtor?_of_moves hc, hmove c hc⟩
  · rw [or_iff_right hmoves]
    refine contribution_iff_of_copies htriv hr fun hm => ?_
    cases hc : r.moveCtor? with
    | none => rfl
    | some c => exact absurd ⟨hm, r, c, hr, hc⟩ hmoves

/-- **What throws as a part degrades**, unless it is copied there although it could be moved
safely. -/
theorem degrades_or_of_contribution (h : t.contribution moving = .yes) :
    t.degrades = true ∨ moving = false ∧ t.HasSafeMove := by
  obtain ⟨htriv, r, hr, c, hc, hyes⟩ := contribution_eq_yes_iff.mp h
  cases hmove : r.moveCtor? with
  | none =>
    refine Or.inl (degrades_iff.mpr ⟨htriv, r, hr, fun d hd => ?_⟩)
    cases hmove.symm.trans hd
  | some d =>
    by_cases hd : d.throwing (some r) = .yes
    · refine Or.inl (degrades_iff.mpr ⟨htriv, r, hr, fun d' hd' => ?_⟩)
      obtain rfl := Option.some.inj (hmove.symm.trans hd')
      exact hd
    · refine Or.inr ⟨?_, r, hr, by simpa [Record.hasSafeMove, hmove] using hd⟩
      cases moving with
      | false => rfl
      | true =>
        rw [Record.transferCtor?_of_moves hmove] at hc
        obtain rfl := Option.some.inj hc
        exact absurd hyes hd

end CppType

/-! ### When what is blamed is a reason -/

/-- The suspect is a reason why the constructor `c` throws that moves the record: it is that
constructor, or a part that throws when the record is moved. -/
def Suspect.Responsible (c : Ctor) : Suspect → Prop
  | ctor d => d = c
  | field f => f.type.contribution (!f.isConst) = .yes
  | base b => b.type.contribution true = .yes

instance (c : Ctor) (s : Suspect) : Decidable (s.Responsible c) :=
  match s with
  | .ctor d => inferInstanceAs (Decidable (d = c))
  | .field f => inferInstanceAs (Decidable (f.type.contribution (!f.isConst) = .yes))
  | .base b => inferInstanceAs (Decidable (b.type.contribution true = .yes))

/-- **When what a record blames is a reason.**  A constructor is one if the record is moved by a
user-provided one.  A member or a base is one if it is moved by a move constructor of its own, or
else if its copy constructor throws; a constant member is copied. -/
theorem Record.suspect_responsible_iff {r : Record CppType} {c : Ctor} (hc : r.moveCtor? = some c)
    {step : CauseStep} (hstep : r.firstCause? = some step) :
    ∃ s, r.suspect? = some s ∧ step = ⟨r.name, r.site, s.blamed r.name⟩ ∧
      (s.Responsible c ↔
        match s with
        | .ctor _ => c.isUserProvided = true
        | .field f => f.isConst = false ∧ f.type.HasMove ∨ f.type.CopyThrows
        | .base b => b.type.HasMove ∨ b.type.CopyThrows) := by
  rw [firstCause?_eq, Option.map_eq_some_iff] at hstep
  obtain ⟨s, hs, rfl⟩ := hstep
  refine ⟨s, hs, rfl, ?_⟩
  rw [suspect?_eq_some_iff] at hs
  cases s with
  | ctor d =>
    constructor
    · rintro rfl
      exact isUserProvided_of_throwingUserMove? hs
    · intro huser
      rw [throwingUserMove?_of_isUserProvided hc huser] at hs
      exact (Option.some.inj (Option.ite_none_right_eq_some.mp hs).2).symm
  | field f =>
    rw [Suspect.Responsible, CppType.contribution_iff_of_degrades (degrades_of_degradingField? hs.2),
      Bool.not_eq_true']
  | base b =>
    rw [Suspect.Responsible,
      CppType.contribution_iff_of_degrades (degrades_of_degradingBase? hs.2.2), eq_self, true_and]

/-! ### Records that blame idle parts -/

/-- The record degrades because of the parts that its move constructor moves, and blames something
that is no reason for it. -/
def Record.BlamesIdle (r : Record CppType) : Prop :=
  (CppType.complete r).degrades = true ∧ ∃ c, r.moveCtor? = some c ∧ c.spec = .unevaluated ∧
    ∃ s, r.suspect? = some s ∧ r.firstCause? = some ⟨r.name, r.site, s.blamed r.name⟩ ∧
      ¬ s.Responsible c

namespace Record

/-- A record whose only constructor copies and cannot throw. -/
def copiedSample : CppType :=
  .complete { name := "Copied", ctors := [{ isCopy := true, spec := .noexceptPlain }] }

/-- A record whose move constructor throws and whose copy constructor cannot. -/
def movedSample : CppType :=
  .complete
    { name := "Moved"
      ctors := [{ isMove := true, isUserProvided := true },
        { isCopy := true, spec := .noexceptPlain }] }

/-- The move constructor that goes by the parts. -/
def impliedMove : Ctor := { isMove := true, isDefaulted := true, spec := .unevaluated }

/-- `struct S { Copied a; Moved b; };` -/
def memberSample : Record CppType :=
  { name := "S", ctors := [impliedMove]
    fields := [{ name := "a", type := copiedSample }, { name := "b", type := movedSample }] }

/-- `struct S { const Moved a; Moved b; };` -/
def constantSample : Record CppType :=
  { name := "S", ctors := [impliedMove]
    fields := [{ name := "a", type := movedSample, isConst := true },
      { name := "b", type := movedSample }] }

/-- `struct S : Copied, Moved { };` -/
def baseSample : Record CppType :=
  { name := "S", ctors := [impliedMove]
    bases := [{ type := copiedSample }, { type := movedSample }] }

/-- `struct S { S(S&&) = default; S(const S&&); Moved a; };` -/
def ctorSample : Record CppType :=
  { name := "S", ctors := [impliedMove, { isMove := true, isUserProvided := true }]
    fields := [{ name := "a", type := movedSample }] }

/-- A member without a move constructor is copied, and so is a constant one; what they blame would
have been thrown by a move.  The same goes for a base, and for a move constructor that is not the
one that is chosen. -/
theorem blamesIdle_samples :
    memberSample.BlamesIdle ∧ constantSample.BlamesIdle ∧ baseSample.BlamesIdle ∧
      ctorSample.BlamesIdle := by
  refine ⟨?_, ?_, ?_, ?_⟩
  · exact ⟨by decide, impliedMove, rfl, rfl, _, rfl, rfl, by decide⟩
  · exact ⟨by decide, impliedMove, rfl, rfl, _, rfl, rfl, by decide⟩
  · exact ⟨by decide, impliedMove, rfl, rfl, _, rfl, rfl, by decide⟩
  · exact ⟨by decide, impliedMove, rfl, rfl, _, rfl, rfl, by decide⟩

/-- The member `a` of `memberSample` is blamed and copied, and its copy constructor cannot throw. -/
theorem suspect_responsible_iff_sample :
    memberSample.moveCtor? = some impliedMove ∧
      memberSample.firstCause? = some ⟨"S", {}, .field "a" {} copiedSample⟩ ∧
      ¬ copiedSample.HasMove ∧ ¬ copiedSample.CopyThrows := by
  obtain ⟨s, hs, -, hiff⟩ := suspect_responsible_iff (r := memberSample) (c := impliedMove) rfl rfl
  obtain rfl : Suspect.field { name := "a", type := copiedSample } = s := Option.some.inj hs
  have hidle : ¬ (Suspect.field { name := "a", type := copiedSample }).Responsible impliedMove := by
    decide
  rw [hiff, not_or] at hidle
  exact ⟨rfl, rfl, fun h => hidle.1 ⟨rfl, h⟩, hidle.2⟩

end Record

end GrowthAudit
