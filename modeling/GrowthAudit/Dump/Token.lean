import GrowthAudit.Location

/-!
# Tokens

The tokens of a source file, in order.  A token may carry a link to the bracket that belongs to
it, the scope of the type that it names, and what is known about its value; scopes and other tokens
are referred to by their positions.

The functions on rows of tokens look at texts only: `between` takes the tokens between two brackets,
`topLevel` drops template argument lists, and `splitCommas` cuts at the commas outside brackets.
-/

namespace GrowthAudit

/-- What is known about the value of an expression: the kind of its type, the scope of a record or
enumeration, and how many pointers lead to it. -/
structure ValueType where
  type : String := ""
  scope : Option Nat := none
  pointers : Int := 0
  deriving DecidableEq, Repr, Inhabited

structure Token where
  text : String
  location : Location := {}
  link : Option Nat := none
  scope : Option Nat := none
  valueType : Option ValueType := none
  deriving DecidableEq, Repr, Inhabited

namespace Token

/-- The text of a token that may be missing. -/
def textOf (t : Option Token) : String := (t.map (·.text)).getD ""

/-- The location of a token that may be missing. -/
def locationOf (t : Option Token) : Location := (t.map (·.location)).getD {}

def isOneOf (words : List String) (t : Token) : Bool := words.contains t.text

/-- The marks of pointers and references. -/
def isIndirection (t : Token) : Bool := t.isOneOf ["*", "&", "&&"]

/-- The texts of tokens without anything between them. -/
def spelling (ts : List Token) : String := String.join (ts.map (·.text))

/-- The tokens between two positions.  Without a second position, or with one that does not follow
the first, all tokens after the first. -/
def between (ts : List Token) (first : Nat) (last : Option Nat) : List Token :=
  match last with
  | none => ts.drop (first + 1)
  | some last =>
    if first < last then (ts.drop (first + 1)).take (last - first - 1) else ts.drop (first + 1)

/-- The tokens from one position to another, both included.  Without a last position, or with one in
front of the first, all tokens from the first on. -/
def through (ts : List Token) (first last : Option Nat) : List Token :=
  match first, last with
  | none, _ => []
  | some first, none => ts.drop first
  | some first, some last =>
    if first ≤ last then (ts.drop first).take (last - first + 1) else ts.drop first

/-- The tokens outside template argument lists, at the given depth of angle brackets.  A closing
bracket that closes nothing is kept. -/
def topLevelAt : (depth : Nat) → List Token → List Token
  | _, [] => []
  | depth, t :: ts =>
    if t.text = "<" then topLevelAt (depth + 1) ts
    else if t.text = ">" ∧ depth ≠ 0 then topLevelAt (depth - 1) ts
    else if depth = 0 then t :: topLevelAt depth ts
    else topLevelAt depth ts

def topLevel (ts : List Token) : List Token := topLevelAt 0 ts

/-- How a token changes the depth of angle brackets and parentheses. -/
def nesting (t : Token) : Int :=
  if t.isOneOf ["<", "("] then 1 else if t.isOneOf [">", ")"] then -1 else 0

/-- Cuts at the commas that stand at depth zero.  The tokens in front lead to the given depth. -/
def splitAt : (depth : Int) → List Token → List (List Token)
  | _, [] => [[]]
  | depth, t :: ts =>
    if t.text = "," ∧ depth = 0 then [] :: splitAt depth ts
    else
      match splitAt (depth + t.nesting) ts with
      | [] => [[t]]
      | group :: groups => (t :: group) :: groups

/-- The groups between commas outside brackets; empty groups are left out. -/
def splitCommas (ts : List Token) : List (List Token) := (splitAt 0 ts).filter (!·.isEmpty)

end Token

end GrowthAudit
