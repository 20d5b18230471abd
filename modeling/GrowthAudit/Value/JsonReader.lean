import GrowthAudit.Text.Hex
import GrowthAudit.Text.Integer
import GrowthAudit.Value.Basic

/-!
# Reading JSON

`Value.ofJson?` reads one JSON document.  A number with a point or an exponent is a double, as are
the words for infinity and for what is no number; any other number is an integer, and is refused if
it has more than `Text.digitLimit` digits.  A key that a table repeats keeps its first place and its
last value; two code units that form a surrogate pair are one character.

The bound of the three readers is the number of characters that are left, which every call lowers.
-/

namespace GrowthAudit.Value

namespace JsonReader

def isSpace (c : Char) : Bool := c == ' ' || c == '\t' || c == '\n' || c == '\r'

def skip (cs : List Char) : List Char := cs.dropWhile isSpace

/-- The character that follows a backslash, for the escapes of two characters. -/
def shortEscape? (c : Char) : Option Nat :=
  match c with
  | '\x22' => some 0x22
  | '\\' => some 0x5C
  | '/' => some 0x2F
  | 'b' => some 0x08
  | 'f' => some 0x0C
  | 'n' => some 0x0A
  | 'r' => some 0x0D
  | 't' => some 0x09
  | _ => none

/-- The code points and code units of a text up to its closing quote, and what follows it. -/
def units? : List Char → Option (List Nat × List Char)
  | [] => none
  | '\x22' :: rest => some ([], rest)
  | '\\' :: 'u' :: a :: b :: c :: d :: rest => do
    let n ← Text.readHex? [a, b, c, d]
    let (ns, rest) ← units? rest
    return (n :: ns, rest)
  | '\\' :: c :: rest => do
    let n ← shortEscape? c
    let (ns, rest) ← units? rest
    return (n :: ns, rest)
  | c :: rest => do
    if c.toNat < 0x20 then none
    let (ns, rest) ← units? rest
    return (c.toNat :: ns, rest)

/-- The characters of code points and code units.  A surrogate without its partner has no character
and is shown by the replacement character. -/
def joinUnits : List Nat → List Char
  | [] => []
  | [n] => [if 0xD800 ≤ n ∧ n < 0xE000 then '\ufffd' else Char.ofNat n]
  | n :: m :: rest =>
    if 0xD800 ≤ n ∧ n < 0xDC00 ∧ 0xDC00 ≤ m ∧ m < 0xE000 then
      Char.ofNat (0x10000 + (n - 0xD800) * 0x400 + (m - 0xDC00)) :: joinUnits rest
    else (if 0xD800 ≤ n ∧ n < 0xE000 then '\ufffd' else Char.ofNat n) :: joinUnits (m :: rest)

/-- A text after its opening quote. -/
def text? (cs : List Char) : Option (String × List Char) := do
  let (ns, rest) ← units? cs
  return (String.ofList (joinUnits ns), rest)

def isDigit (c : Char) : Bool := '0' ≤ c && c ≤ '9'

def digitsValue (ds : List Char) : Nat := ds.foldl (fun n c => 10 * n + (c.toNat - 48)) 0

/-- The double nearest to `m · 10 ^ e`.  Exponents far outside the range of doubles are cut down
first, which changes nothing. -/
def nearestFloat (m : Nat) (e : Int) : Float :=
  let top := e + (Nat.toDigits 10 m).length
  if m = 0 ∨ top < -400 then 0.0
  else if 400 < top then 1.0 / 0.0
  else Float.ofScientific m (e < 0) e.natAbs

/-- The point and the digits after it. -/
def fraction (cs : List Char) : List Char × List Char :=
  match cs with
  | '.' :: rest =>
    if (rest.takeWhile isDigit).isEmpty then ([], cs)
    else (rest.takeWhile isDigit, rest.dropWhile isDigit)
  | _ => ([], cs)

/-- The exponent, where there is one. -/
def exponent (cs : List Char) : Option Int × List Char :=
  match cs with
  | c :: rest =>
    if c = 'e' ∨ c = 'E' then
      let (negative, ds) := match rest with
        | '-' :: ds => (true, ds)
        | '+' :: ds => (false, ds)
        | ds => (false, ds)
      if (ds.takeWhile isDigit).isEmpty then (none, cs)
      else
        let n : Int := digitsValue (ds.takeWhile isDigit)
        (some (if negative then -n else n), ds.dropWhile isDigit)
    else (none, cs)
  | [] => (none, [])

def number? (cs : List Char) : Option (Value × List Char) :=
  let (negative, body) := match cs with
    | '-' :: rest => (true, rest)
    | _ => (false, cs)
  let whole := if body.head? = some '0' then ['0'] else body.takeWhile isDigit
  if whole.isEmpty then none
  else
    let (places, rest) := fraction (body.drop whole.length)
    let (e?, rest) := exponent rest
    if places.isEmpty && e?.isNone then
      if Text.digitLimit < whole.length then none
      else
        let n : Int := digitsValue whole
        some (.int (if negative then -n else n), rest)
    else
      let x := nearestFloat (digitsValue (whole ++ places)) (e?.getD 0 - places.length)
      some (.float (if negative then -x else x), rest)

/-- Takes a given word off the front of a text. -/
def word? (word : List Char) (v : Value) (cs : List Char) : Option (Value × List Char) :=
  if word.isPrefixOf cs then some (v, cs.drop word.length) else none

mutual

def value? : (bound : Nat) → List Char → Option (Value × List Char)
  | 0, _ => none
  | bound + 1, cs =>
    match skip cs with
    | '\x22' :: rest => (text? rest).map fun (s, rest) => (.str s, rest)
    | '[' :: rest =>
      match skip rest with
      | ']' :: rest => some (.list [], rest)
      | rest => (items? bound rest).map fun (vs, rest) => (.list vs, rest)
    | '\x7b' :: rest =>
      match skip rest with
      | '\x7d' :: rest => some (.table [], rest)
      | rest => (entries? bound [] rest).map fun (es, rest) => (.table es, rest)
    | 'n' :: rest => word? "ull".toList .null rest
    | 't' :: rest => word? "rue".toList (.bool true) rest
    | 'f' :: rest => word? "alse".toList (.bool false) rest
    | 'N' :: rest => word? "aN".toList (.float (0.0 / 0.0)) rest
    | 'I' :: rest => word? "nfinity".toList (.float (1.0 / 0.0)) rest
    | '-' :: 'I' :: rest => word? "nfinity".toList (.float (-1.0 / 0.0)) rest
    | rest => number? rest

/-- The items of a list after its opening bracket, at least one. -/
def items? : (bound : Nat) → List Char → Option (List Value × List Char)
  | 0, _ => none
  | bound + 1, cs => do
    let (v, rest) ← value? bound cs
    match skip rest with
    | ',' :: rest =>
      let (vs, rest) ← items? bound rest
      return (v :: vs, rest)
    | ']' :: rest => return ([v], rest)
    | _ => none

/-- The entries of a table, at least one, after those that were read before. -/
def entries? : (bound : Nat) → List (String × Value) → List Char →
    Option (List (String × Value) × List Char)
  | 0, _, _ => none
  | bound + 1, before, cs => do
    let '\x22' :: rest := skip cs | none
    let (key, rest) ← text? rest
    let ':' :: rest := skip rest | none
    let (v, rest) ← value? bound rest
    let entries := setEntry key v before
    match skip rest with
    | ',' :: rest => entries? bound entries rest
    | '\x7d' :: rest => return (entries, rest)
    | _ => none

end

end JsonReader

/-- Reads a document that holds one value and white space around it. -/
def ofJson? (s : String) : Option Value := do
  let cs := s.toList
  let (v, rest) ← JsonReader.value? (cs.length + 1) cs
  if rest.all JsonReader.isSpace then some v else none

end GrowthAudit.Value
