import GrowthAudit.CppType.Basic

/-!
# Which constructors may throw

A constructor is classified by its exception specification.  The written forms speak for themselves,
except that a condition which nobody evaluated stays unknown; a specification that is implied is the
worst that the sub-objects of the record contribute.

`CppType.contribution` is what a sub-object contributes, and `Ctor.throwing` classifies one
constructor.  The recursion goes through the tree of types.  The main statement,
`CppType.contribution_eq`, says it without the tree: a type that is not trivially copyable
contributes what the constructor is classified as that transfers it, and `Record.derived` takes the
worst over a list of sub-objects, in which neither order nor repetition matters.
-/

namespace GrowthAudit

/-- Whether something throws.  The order is that of blame: what throws outweighs what is unknown. -/
inductive Throwing where
  | no
  | unknown
  | yes
  deriving DecidableEq, Repr, Inhabited

namespace Throwing

/-- The worse of two.  The second one is not looked at where the first one throws. -/
@[macro_inline]
def max (a b : Throwing) : Throwing :=
  match a with
  | yes => yes
  | unknown => if b = yes then yes else unknown
  | no => b

@[simp] theorem no_max (a : Throwing) : max no a = a := by cases a <;> rfl

theorem max_comm (a b : Throwing) : max a b = max b a := by cases a <;> cases b <;> rfl

theorem max_assoc (a b c : Throwing) : max (max a b) c = max a (max b c) := by
  cases a <;> cases b <;> cases c <;> rfl

@[simp] theorem max_eq_yes {a b : Throwing} : max a b = yes ↔ a = yes ∨ b = yes := by
  cases a <;> cases b <;> decide

@[simp] theorem max_eq_no {a b : Throwing} : max a b = no ↔ a = no ∧ b = no := by
  cases a <;> cases b <;> decide

/-- The worst of a list. -/
def sup : List Throwing → Throwing
  | [] => no
  | a :: rest => max a (sup rest)

theorem sup_append (as bs : List Throwing) : sup (as ++ bs) = max (sup as) (sup bs) := by
  induction as with
  | nil => simp [sup]
  | cons a as ih => simp [sup, ih, max_assoc]

theorem sup_eq_yes {as : List Throwing} : sup as = yes ↔ yes ∈ as := by
  induction as with
  | nil => simp [sup]
  | cons a as ih => rw [sup, max_eq_yes, ih, List.mem_cons, eq_comm (a := a)]

end Throwing

/-- What a specification says by itself, `none` where it follows from the parts of the record. -/
def ExceptionSpec.written? : ExceptionSpec → Option Throwing
  | .noexceptPlain | .noexceptTrue | .throwNothing => some .no
  | .absent | .noexceptFalse | .throwSome => some .yes
  | .noexceptDependent => some .unknown
  | .unevaluated => none

namespace CppType

mutual

/-- What an object of this type contributes when it is moved or copied as a part of another. -/
def contribution (moving : Bool) : CppType → Throwing
  | mk _ kind definition => if kind.isScalar then .no else contributionOf moving definition

def contributionOf (moving : Bool) : Option (Record CppType) → Throwing
  | none => .unknown
  | some r => contributionOfRecord moving r

def contributionOfRecord (moving : Bool) : Record CppType → Throwing
  | ⟨name, site, ctors, fields, bases, isTrivial⟩ =>
    if isTrivial then .no
    else
      match (Record.mk name site ctors fields bases isTrivial).transferCtor? moving with
      | none => .unknown
      | some c =>
        (c.spec.written?).getD
          ((contributionOfBases c.isMove bases).max (contributionOfFields c.isMove fields))

def contributionOfBases (moving : Bool) : List (Base CppType) → Throwing
  | [] => .no
  | b :: bs => (contributionOfBase moving b).max (contributionOfBases moving bs)

def contributionOfBase (moving : Bool) : Base CppType → Throwing
  | ⟨type, _, _⟩ => type.contribution moving

def contributionOfFields (moving : Bool) : List (Field CppType) → Throwing
  | [] => .no
  | f :: fs => (contributionOfField moving f).max (contributionOfFields moving fs)

/-- A static member contributes nothing, and a constant one is copied. -/
def contributionOfField (moving : Bool) : Field CppType → Throwing
  | ⟨_, type, isOwn, _, isConst⟩ => if isOwn then type.contribution (moving && !isConst) else .no

end

end CppType

/-- What the sub-objects of a record contribute when they are moved or copied. -/
def Record.derived (r : Record CppType) (moving : Bool) : Throwing :=
  .sup (r.subObjects.map fun s => s.1.contribution (moving && !s.2))

/-- Classifies a constructor.  The owner is the record that declares it; without one an implied
specification stays unknown. -/
def Ctor.throwing (c : Ctor) (owner : Option (Record CppType)) : Throwing :=
  match c.spec.written? with
  | some written => written
  | none =>
    match owner with
    | none => .unknown
    | some r => r.derived c.isMove

namespace CppType

theorem contributionOfBase_eq (moving : Bool) (b : Base CppType) :
    contributionOfBase moving b = b.type.contribution moving := by
  cases b
  rw [contributionOfBase]

theorem contributionOfField_eq (moving : Bool) (f : Field CppType) :
    contributionOfField moving f =
      if f.isOwn then f.type.contribution (moving && !f.isConst) else .no := by
  cases f
  rw [contributionOfField]

theorem contributionOfBases_eq (moving : Bool) (bs : List (Base CppType)) :
    contributionOfBases moving bs = .sup (bs.map fun b => b.type.contribution moving) := by
  induction bs with
  | nil => simp [contributionOfBases, Throwing.sup]
  | cons b bs ih => simp [contributionOfBases, contributionOfBase_eq, Throwing.sup, ih]

theorem contributionOfFields_eq (moving : Bool) (fs : List (Field CppType)) :
    contributionOfFields moving fs =
      .sup ((fs.filter (·.isOwn)).map fun f => f.type.contribution (moving && !f.isConst)) := by
  induction fs with
  | nil => simp [contributionOfFields, Throwing.sup]
  | cons f fs ih =>
    by_cases h : f.isOwn <;>
      simp [contributionOfFields, contributionOfField_eq, Throwing.sup, ih, h]

end CppType

theorem Record.derived_eq (r : Record CppType) (moving : Bool) :
    r.derived moving = (CppType.contributionOfBases moving r.bases).max
      (CppType.contributionOfFields moving r.fields) := by
  simp [derived, subObjects, Throwing.sup_append, CppType.contributionOfBases_eq,
    CppType.contributionOfFields_eq, Function.comp_def]

/-- What a type contributes, in terms of the constructor that transfers it. -/
theorem CppType.contribution_eq (moving : Bool) (t : CppType) :
    t.contribution moving =
      if t.isTrivial then .no
      else
        match t.definition with
        | none => .unknown
        | some r =>
          match r.transferCtor? moving with
          | none => .unknown
          | some c => c.throwing (some r) := by
  obtain ⟨name, kind, definition⟩ := t
  rw [contribution]
  cases hk : kind.isScalar with
  | true => simp [isTrivial, isScalar, CppType.kind, hk]
  | false =>
    cases definition with
    | none => simp [isTrivial, isScalar, CppType.kind, CppType.definition, hk, contributionOf]
    | some r =>
      obtain ⟨rn, rs, rc, rf, rb, rt⟩ := r
      cases rt with
      | true =>
        simp [isTrivial, isScalar, CppType.kind, CppType.definition, hk, contributionOf,
          contributionOfRecord]
      | false =>
        simp only [isTrivial, isScalar, CppType.kind, CppType.definition, hk, contributionOf,
          contributionOfRecord]
        cases (Record.mk rn rs rc rf rb false).transferCtor? moving with
        | none => simp
        | some c =>
          cases hw : c.spec.written? <;> simp [Ctor.throwing, hw, Record.derived_eq]

end GrowthAudit
