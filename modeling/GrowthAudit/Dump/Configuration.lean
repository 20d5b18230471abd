import GrowthAudit.Dump.Token
import GrowthAudit.Value.Basic

/-!
# Configurations

A configuration is what a preprocessor run leaves of a source file: its tokens, its scopes with
their variables and functions, and the comments that suppress diagnostics.  Scopes refer to each
other and to tokens by position.
-/

namespace GrowthAudit

/-- What a scope is the body of.  Classes, structures and unions are all records. -/
inductive ScopeKind where
  | record
  | enumeration
  | nameSpace
  | other
  deriving DecidableEq, Repr, Inhabited

def ScopeKind.ofWord (word : String) : ScopeKind :=
  if ["Class", "Struct", "Union"].contains word then .record
  else if word = "Enum" then .enumeration
  else if word = "Namespace" then .nameSpace
  else .other

/-- What sort of function a function is.  An assignment may copy or move, unless it is told apart as
one that moves. -/
inductive FunctionKind where
  | constructor
  | copyConstructor
  | moveConstructor
  | assignment
  | moveAssignment
  | destructor
  | other
  deriving DecidableEq, Repr, Inhabited

namespace FunctionKind

def ofWord (word : String) : FunctionKind :=
  match word with
  | "Constructor" => .constructor
  | "CopyConstructor" => .copyConstructor
  | "MoveConstructor" => .moveConstructor
  | "OperatorEqual" => .assignment
  | "MoveAssignment" => .moveAssignment
  | "Destructor" => .destructor
  | _ => .other

def isConstructor : FunctionKind → Bool
  | .constructor | .copyConstructor | .moveConstructor => true
  | _ => false

/-- The special members: what a class declares itself instead of getting it for free.  An assignment
that is told apart as one that moves is not counted among them. -/
def isSpecial : FunctionKind → Bool
  | .copyConstructor | .moveConstructor | .assignment | .destructor => true
  | _ => false

end FunctionKind

/-- A variable of a scope, with the tokens of its name and of its type. -/
structure Variable where
  nameToken : Option Nat := none
  typeStart : Option Nat := none
  typeEnd : Option Nat := none
  isStatic : Bool := false
  isPointer : Bool := false
  isReference : Bool := false
  deriving DecidableEq, Repr, Inhabited

/-- A function of a scope, with the token of its name where it is declared. -/
structure MemberFunction where
  kind : FunctionKind := .other
  nameToken : Option Nat := none
  isVirtual : Bool := false
  isDefaulted : Bool := false
  isDeleted : Bool := false
  deriving DecidableEq, Repr, Inhabited

structure Scope where
  kind : ScopeKind := .other
  className : String := ""
  id : Option String := none
  bodyStart : Option Nat := none
  nestedIn : Option Nat := none
  members : List Variable := []
  functions : List MemberFunction := []
  deriving DecidableEq, Repr, Inhabited

/-- A suppression as a comment gives it.  The line may be any value and is read when needed. -/
structure SuppressionComment where
  id : String := ""
  file : String := ""
  line : Value := .null
  deriving Inhabited

structure Configuration where
  tokens : List Token := []
  scopes : List Scope := []
  suppressions : List SuppressionComment := []
  deriving Inhabited

/-- What tells two scopes apart: the name that the dump gives them, or the position of a scope that
has none. -/
inductive ScopeKey where
  | named (id : String)
  | anonymous (position : Nat)
  deriving DecidableEq, Repr, Inhabited

namespace Configuration

def token? (c : Configuration) (i : Option Nat) : Option Token := i.bind (c.tokens[·]?)

def scope? (c : Configuration) (i : Nat) : Option Scope := c.scopes[i]?

/-- The kind of a scope; a scope that is not there is of no particular kind. -/
def kindOf (c : Configuration) (i : Nat) : ScopeKind := ((c.scope? i).map (·.kind)).getD .other

def keyOf (c : Configuration) (i : Nat) : ScopeKey :=
  match (c.scope? i).bind (·.id) with
  | some id => if id = "" then .anonymous i else .named id
  | none => .anonymous i

end Configuration

end GrowthAudit
