import GrowthAudit.CppType.Verdict

/-!
# Causes

Why a type degrades, one record at a time from the outside to the inside.  A record blames its own
move constructor if that one is user provided and throws, else the first of its own data members
whose type degrades, else the first base that degrades and is not virtual: virtual bases are shared
by the whole hierarchy and never blamed.

`Record.firstCause?` selects what one record blames, and `CppType.explain` follows the blamed types
down to a given depth.  The record at that depth still names its own cause.
-/

namespace GrowthAudit

/-- What a record blames. -/
inductive Blamed where
  | ctor (name : String) (location : Location)
  | field (name : String) (location : Location) (type : CppType)
  | base (location : Location) (type : CppType)

namespace Blamed

/-- The name of the rule that selected the blame. -/
def rule : Blamed → String
  | ctor .. => "userThrowingMoveConstructor"
  | field .. => "throwingField"
  | base .. => "throwingNonVirtualBase"

def name : Blamed → String
  | ctor name _ => name
  | field name _ _ => name
  | base _ type => type.name

def location : Blamed → Location
  | ctor _ location => location
  | field _ location _ => location
  | base location _ => location

/-- The type in which the search for causes goes on. -/
def type? : Blamed → Option CppType
  | ctor .. => none
  | field _ _ type => some type
  | base _ type => some type

end Blamed

/-- One step of an explanation: a record and what it blames. -/
structure CauseStep where
  record : String
  site : Location
  blamed : Blamed

namespace Record

/-- The first user-provided move constructor, if it throws. -/
def throwingUserMove? (r : Record CppType) : Option Ctor :=
  (r.ctors.find? fun c => c.isMove && c.isUserProvided).filter
    fun c => c.throwing (some r) == .yes

/-- The first own data member whose type degrades. -/
def degradingField? (r : Record CppType) : Option (Field CppType) :=
  r.fields.find? fun f => f.isOwn && f.type.degrades

/-- The first base that degrades and is not virtual. -/
def degradingBase? (r : Record CppType) : Option (Base CppType) :=
  r.bases.find? fun b => !b.isVirtual && b.type.degrades

/-- What a record blames, by the first rule that applies.  A constructor without a name goes by the
name of its record. -/
def blamed? (r : Record CppType) : Option Blamed :=
  match r.throwingUserMove? with
  | some c => some (.ctor (if c.name = "" then r.name else c.name) c.location)
  | none =>
    match r.degradingField? with
    | some f => some (.field f.name f.location f.type)
    | none => r.degradingBase?.map fun b => .base b.location b.type

def firstCause? (r : Record CppType) : Option CauseStep :=
  r.blamed?.map fun b => ⟨r.name, r.site, b⟩

end Record

namespace CppType

/-- What the definition of a type blames first. -/
def cause? (t : CppType) : Option CauseStep := t.definition.bind (·.firstCause?)

/-- The causes of a type and, up to the given number of steps further, of the types it blames. -/
def trace : (further : Nat) → CppType → List CauseStep
  | 0, t => t.cause?.toList
  | further + 1, t =>
    match t.cause? with
    | none => []
    | some step => step :: (step.blamed.type?.map (trace further)).getD []

/-- The depth at which explanations end unless another one is asked for. -/
def defaultDepth : Int := 3

/-- The explanation of a type that stands at `depth` in one that ends at `maxDepth`. -/
def explain (t : CppType) (depth maxDepth : Int) : List CauseStep :=
  t.trace (maxDepth - depth).toNat

end CppType

end GrowthAudit
