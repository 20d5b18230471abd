import GrowthAudit.Dump.Configuration
import GrowthAudit.Dump.Specifiers

/-!
# Special members

The constructors of a record: those that are declared, in their order, and the move and copy
constructors that the language adds.  A move constructor is added if no special member is declared,
a copy constructor if neither constructor of the two nor a move assignment is.
-/

namespace GrowthAudit.Configuration

/-- Whether a function takes an rvalue reference.  Its parameter list starts within three tokens of
its name. -/
def takesRvalue (c : Configuration) (f : MemberFunction) : Bool :=
  match f.nameToken with
  | none => false
  | some i =>
    match ((c.tokens.drop i).take 4).findIdx? (·.text == "(") with
    | none => false
    | some k =>
      (Token.topLevel (Token.between c.tokens (i + k) (Token.closing? c.tokens (i + k)))).any
        (·.text == "&&")

/-- A declared constructor.  One that is defaulted without a specification gets an implied one. -/
def declaredCtor (c : Configuration) (s : Scope) (f : MemberFunction) : Ctor :=
  let written := Specifiers.ofFunction c.tokens f.nameToken
  let isDefaulted := written.isDefaulted || f.isDefaulted
  let isDeleted := written.isDeleted || f.isDeleted
  { name := s.className
    location := Token.locationOf (c.token? f.nameToken)
    isMove := f.kind == .moveConstructor
    isCopy := f.kind == .copyConstructor
    isUserProvided := !(isDefaulted || isDeleted)
    isDefaulted
    isDeleted
    spec := if isDefaulted && written.spec == .absent then .unevaluated else written.spec }

/-- Whether the functions leave it to the language to add a move constructor. -/
def addsMove (s : Scope) : Bool := !s.functions.any (·.kind.isSpecial)

/-- Whether a function is a move assignment, by its kind or by its parameters. -/
def isMoveAssignment (c : Configuration) (f : MemberFunction) : Bool :=
  f.kind == .moveAssignment || (f.kind == .assignment && c.takesRvalue f)

/-- Whether the functions leave it to the language to add a copy constructor. -/
def addsCopy (c : Configuration) (s : Scope) : Bool :=
  !s.functions.any fun f =>
    f.kind == .copyConstructor || f.kind == .moveConstructor || c.isMoveAssignment f

/-- A constructor that the language adds, at the given place. -/
def impliedCtor (name : String) (location : Location) (isMove : Bool) : Ctor :=
  { name, location, isMove, isCopy := !isMove, isDefaulted := true, spec := .unevaluated }

/-- All constructors of a record; those that the language adds stand where the record is named. -/
def ctorsOf (c : Configuration) (s : Scope) (named : Location) : List Ctor :=
  (s.functions.filter (·.kind.isConstructor)).map (c.declaredCtor s) ++
    (if addsMove s then [impliedCtor s.className named true] else []) ++
    (if c.addsCopy s then [impliedCtor s.className named false] else [])

/-- Whether no function stands in the way of copying objects byte by byte: none is virtual, and no
special member is more than defaulted. -/
def functionsAreTrivial (c : Configuration) (s : Scope) : Bool :=
  s.functions.all fun f =>
    !f.isVirtual &&
      (!f.kind.isSpecial ||
        (Specifiers.ofFunction c.tokens f.nameToken).isDefaulted || f.isDefaulted)

end GrowthAudit.Configuration
