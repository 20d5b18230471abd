import GrowthAudit.Text.Blank
import GrowthAudit.Text.Digit

/-!
# Reading integers

An integer is written as an optional sign and a group of decimal digits of any script, in which
single low lines may separate digits; white space may stand around it.  `readInteger` gives its
value or the reason why there is none.

The information separators U+001C to U+001F are white space elsewhere but not around a number.
Digits are counted before they are converted, and a number of more than `digitLimit` digits is
refused: the time to convert grows faster than the length.  `IsConvertible` says of an integer that
it has so few digits that it can be read and written.
-/

namespace GrowthAudit.Text

/-- Why a text is no integer. -/
inductive IntegerFault where
  | notANumber
  | tooLong (digits : Nat)
  deriving DecidableEq, Repr

/-- The most digits that are converted. -/
def digitLimit : Nat := 4300

/-- An integer has at most as many digits as are converted. -/
def IsConvertible (n : Int) : Prop := (Nat.toDigits 10 n.natAbs).length ≤ digitLimit

instance (n : Int) : Decidable (IsConvertible n) :=
  inferInstanceAs (Decidable ((Nat.toDigits 10 n.natAbs).length ≤ digitLimit))

def isNumberBlank (c : Char) : Bool :=
  isBlank c && !(0x1C ≤ c.toNat && c.toNat ≤ 0x1F)

def isGroupChar (c : Char) : Bool := isDigit c || c == '_'

/-- A group starts and ends with a digit and has no two low lines in a row.  The flag says that the
character before was a digit. -/
def isGroup (afterDigit : Bool) : List Char → Bool
  | [] => afterDigit
  | c :: cs => if c = '_' then afterDigit && isGroup false cs else isGroup true cs

/-- The sign of a number and what follows it. -/
def splitSign : List Char → Bool × List Char
  | '-' :: cs => (true, cs)
  | '+' :: cs => (false, cs)
  | cs => (false, cs)

/-- Reads an integer.  A badly formed group is noticed first, then one that is too long, and last
whatever follows the group. -/
def readInteger (text : String) : Except IntegerFault Int :=
  let (negative, cs) := splitSign (text.toList.dropWhile isNumberBlank)
  let group := cs.takeWhile isGroupChar
  let rest := cs.dropWhile isGroupChar
  let digits := (group.filter isDigit).length
  if !isGroup false group then .error .notANumber
  else if digitLimit < digits then .error (.tooLong digits)
  else if !rest.all isNumberBlank then .error .notANumber
  else .ok (if negative then -(digitsValue group : Int) else digitsValue group)

end GrowthAudit.Text
