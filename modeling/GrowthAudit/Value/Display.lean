import GrowthAudit.Decimal.Shortest
import GrowthAudit.Text.Quoted
import GrowthAudit.Value.Basic

/-!
# Values in messages

How a message shows a value: a text stands as it is, everything else as it would be written inside
a list, where texts are quoted.
-/

namespace GrowthAudit.Value

/-- The spellings of null and of the truth values. -/
def nullWord : String := "None"

def boolWord (b : Bool) : String := if b then "True" else "False"

mutual

/-- A value inside a list or table. -/
def inner : Value → String
  | .null => nullWord
  | .bool b => boolWord b
  | .int n => toString n
  | .float x => Decimal.Layout.standard.floatText x
  | .str s => Text.quoted s
  | .list items => "[" ++ ", ".intercalate (innerItems items) ++ "]"
  | .table entries => "\x7b" ++ ", ".intercalate (innerEntries entries) ++ "\x7d"

def innerItems : List Value → List String
  | [] => []
  | v :: vs => inner v :: innerItems vs

def innerEntries : List (String × Value) → List String
  | [] => []
  | (k, v) :: rest => (Text.quoted k ++ ": " ++ inner v) :: innerEntries rest

end

/-- A value as a message shows it. -/
def display : Value → String
  | .str s => s
  | v => inner v

end GrowthAudit.Value
