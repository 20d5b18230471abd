import GrowthAudit.Value.Table

/-!
# Values

Options, statistics and the details of errors are values of a document: nothing, truth values,
integers, doubles, texts, lists and tables.  A table keeps its keys in the order in which they were
first written.

`Value.isTruthy` tells the values that count as given from the empty ones, and `Value.number?` the
values that can be added.
-/

namespace GrowthAudit

inductive Value where
  | null
  | bool (b : Bool)
  | int (n : Int)
  | float (x : Float)
  | str (s : String)
  | list (items : List Value)
  | table (entries : List (String × Value))
  deriving Inhabited

/-- Numbers: integers are exact, and an integer that meets a double becomes one.  An integer beyond
all doubles cannot, so that there is no sum. -/
inductive Number where
  | int (n : Int)
  | float (x : Float)
  deriving Inhabited

namespace Number

/-- The least natural number that is rounded to a power of two beyond all doubles: 54 bits that are
set, and 970 that are not. -/
def floatBound : Nat := 0x3FFFFFFFFFFFFF * Nat.pow (Nat.pow 2 97) 10

/-- The double nearest to a number. -/
def toFloat? : Number → Option Float
  | .int n => if n.natAbs < floatBound then some (Float.ofInt n) else none
  | .float x => some x

def add? : Number → Number → Option Number
  | .int a, .int b => some (.int (a + b))
  | a, b => do return .float ((← a.toFloat?) + (← b.toFloat?))

def sub? : Number → Number → Option Number
  | .int a, .int b => some (.int (a - b))
  | a, b => do return .float ((← a.toFloat?) - (← b.toFloat?))

def toValue : Number → Value
  | .int n => .int n
  | .float x => .float x

end Number

namespace Value

/-- Whether a value counts as given: null, false, zero and everything empty do not. -/
def isTruthy : Value → Bool
  | .null => false
  | .bool b => b
  | .int n => n != 0
  | .float x => x != 0
  | .str s => !s.isEmpty
  | .list items => !items.isEmpty
  | .table entries => !entries.isEmpty

/-- The number that a value is; a truth value counts as one or zero. -/
def number? : Value → Option Number
  | .bool b => some (.int (if b then 1 else 0))
  | .int n => some (.int n)
  | .float x => some (.float x)
  | _ => none

/-- What is written under a key of a table. -/
def get? (key : String) : Value → Option Value
  | .table entries => entries.lookup key
  | _ => none

end Value

end GrowthAudit
