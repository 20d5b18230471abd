import GrowthAudit.Location

/-!
# Types

The types of a C++ program as far as moving their values is concerned.  A type has a name and a
kind; a record type whose definition is visible carries it, and the definition lists constructors,
data members and bases in the order of their declaration.  Records contain other types by value
only, so a type is a finite tree.

`CppType.inductionOn` is the induction principle that later proofs use: what holds of a type as soon
as it holds of the types of its members and bases holds of every type.
-/

namespace GrowthAudit

/-- What sort of type a type is; only a record can be expensive to move. -/
inductive TypeKind where
  | builtin
  | enumeration
  | pointer
  | record
  deriving DecidableEq, Repr, Inhabited

def TypeKind.isScalar : TypeKind → Bool
  | .record => false
  | _ => true

/-- The exception specification of a constructor: as it is written, or `unevaluated` where it
follows from the parts of the record. -/
inductive ExceptionSpec where
  | absent
  | noexceptPlain
  | noexceptTrue
  | noexceptFalse
  | throwNothing
  | throwSome
  | noexceptDependent
  | unevaluated
  deriving DecidableEq, Repr, Inhabited

/-- A constructor.  One that is defaulted or deleted where it is first declared is not user
provided. -/
structure Ctor where
  name : String := ""
  location : Location := {}
  isMove : Bool := false
  isCopy : Bool := false
  isUserProvided : Bool := false
  isDefaulted : Bool := false
  isDeleted : Bool := false
  spec : ExceptionSpec := .absent
  deriving DecidableEq, Repr, Inhabited

/-- A data member.  A static one is not a part of the record, and a constant one is copied even by a
move. -/
structure Field (τ : Type) where
  name : String
  type : τ
  isOwn : Bool := true
  location : Location := {}
  isConst : Bool := false

structure Base (τ : Type) where
  type : τ
  isVirtual : Bool := false
  location : Location := {}

/-- The definition of a record.  Whether it is trivially copyable is a fact about all its parts that
whoever builds the record provides. -/
structure Record (τ : Type) where
  name : String
  site : Location := {}
  ctors : List Ctor := []
  fields : List (Field τ) := []
  bases : List (Base τ) := []
  isTrivial : Bool := false

inductive CppType where
  | mk (name : String) (kind : TypeKind) (definition : Option (Record CppType))

namespace CppType

def name : CppType → String
  | mk name _ _ => name

def kind : CppType → TypeKind
  | mk _ kind _ => kind

def definition : CppType → Option (Record CppType)
  | mk _ _ definition => definition

instance : Inhabited CppType := ⟨mk "" .record none⟩

def builtin (name : String) : CppType := mk name .builtin none

def enumeration (name : String) : CppType := mk name .enumeration none

def pointer (name : String) : CppType := mk name .pointer none

/-- The type of a record whose definition is visible. -/
def complete (r : Record CppType) : CppType := mk r.name .record (some r)

/-- The type of a record that is only known by name. -/
def incomplete (name : String) : CppType := mk name .record none

def isScalar (t : CppType) : Bool := t.kind.isScalar

def isRecord (t : CppType) : Bool := t.kind == .record

def isComplete (t : CppType) : Bool := t.isScalar || t.definition.isSome

/-- Scalars are always trivially copyable, a record as its definition says, and a record without a
definition is not. -/
def isTrivial (t : CppType) : Bool :=
  t.isScalar || (t.definition.map (·.isTrivial)).getD false

end CppType

namespace Record

/-- What a record is made of: its bases and then its own data members, each with whether it is
constant. -/
def subObjects (r : Record τ) : List (τ × Bool) :=
  r.bases.map (fun b => (b.type, false)) ++
    (r.fields.filter (·.isOwn)).map (fun f => (f.type, f.isConst))

/-- The move constructor that overload resolution finds; a deleted one counts as absent. -/
def moveCtor? (r : Record τ) : Option Ctor :=
  (r.ctors.find? (·.isMove)).filter (!·.isDeleted)

/-- The copy constructor that overload resolution finds; a deleted one counts as absent. -/
def copyCtor? (r : Record τ) : Option Ctor :=
  (r.ctors.find? (·.isCopy)).filter (!·.isDeleted)

/-- The constructor that makes a new object from one of this record that is moved or copied.
Without a usable move constructor a move copies. -/
def transferCtor? (r : Record τ) (moving : Bool) : Option Ctor :=
  (if moving then r.moveCtor? else none).or r.copyCtor?

end Record

/-- A property of types that holds of a type whenever it holds of the types of all members and bases
of its definition holds of every type. -/
theorem CppType.inductionOn {P : CppType → Prop} (t : CppType)
    (step : ∀ name kind definition,
      (∀ r, definition = some r →
        (∀ f ∈ r.fields, P f.type) ∧ (∀ b ∈ r.bases, P b.type)) →
      P (.mk name kind definition)) : P t :=
  CppType.rec (motive_1 := P)
    (motive_2 := fun d => ∀ r, d = some r →
      (∀ f ∈ r.fields, P f.type) ∧ (∀ b ∈ r.bases, P b.type))
    (motive_3 := fun r => (∀ f ∈ r.fields, P f.type) ∧ (∀ b ∈ r.bases, P b.type))
    (motive_4 := fun fs => ∀ f ∈ fs, P f.type)
    (motive_5 := fun bs => ∀ b ∈ bs, P b.type)
    (motive_6 := fun f => P f.type)
    (motive_7 := fun b => P b.type)
    (fun name kind d h => step name kind d h)
    (fun _ h => nomatch h)
    (fun _ hr _ h => by cases h; exact hr)
    (fun _ _ _ _ _ _ hf hb => ⟨hf, hb⟩)
    (fun _ h => nomatch h)
    (fun f fs hf hfs g hg => by
      rcases List.mem_cons.1 hg with rfl | h
      · exact hf
      · exact hfs g h)
    (fun _ h => nomatch h)
    (fun b bs hb hbs g hg => by
      rcases List.mem_cons.1 hg with rfl | h
      · exact hb
      · exact hbs g h)
    (fun _ _ _ _ _ ht => ht)
    (fun _ _ _ ht => ht)
    t

end GrowthAudit
