import GrowthAudit.Decimal.Shortest
import GrowthAudit.Text.Hex
import GrowthAudit.Value.Basic

/-!
# JSON text of values

A value on one line of JSON: a comma and a colon are followed by one space, and every character
outside printable ASCII is escaped.  The line and tab controls, the quote and the backslash have
escapes of two characters; all others are written by the four digits of their code units, two units
for a character beyond the basic plane.

This is the layout of a value.  An integer that is too long to be converted (`Text.IsConvertible`)
has no such text for anyone who reads or writes it, and what is said of reading values back leaves
it out.
-/

namespace GrowthAudit.Value

namespace Json

/-- The escape of one code unit. -/
def unitEscape (u : Nat) : List Char := '\\' :: 'u' :: Text.hexCode 4 u

/-- A character inside a JSON text. -/
def escapeChar (c : Char) : List Char :=
  if c = '\x22' then ['\\', '\x22']
  else if c = '\\' then ['\\', '\\']
  else if c = '\n' then ['\\', 'n']
  else if c = '\r' then ['\\', 'r']
  else if c = '\t' then ['\\', 't']
  else if c = '\x08' then ['\\', 'b']
  else if c = '\x0c' then ['\\', 'f']
  else if 0x20 ≤ c.toNat ∧ c.toNat ≤ 0x7E then [c]
  else if c.toNat < 0x10000 then unitEscape c.toNat
  else
    let n := c.toNat - 0x10000
    unitEscape (0xD800 + n / 0x400) ++ unitEscape (0xDC00 + n % 0x400)

def quoteChars (cs : List Char) : List Char :=
  '\x22' :: (cs.flatMap escapeChar ++ ['\x22'])

/-- Joins the written items of a list or table. -/
def joined : List (List Char) → List Char
  | [] => []
  | [a] => a
  | a :: rest => a ++ ',' :: ' ' :: joined rest

/-- The layout of numbers is that of messages; only the words for infinity and for what is no
number differ. -/
def numbers : Decimal.Layout :=
  let standard := Decimal.Layout.standard
  ⟨standard.positional, standard.keepsPoint, standard.exponentWidth, "Infinity", "NaN"⟩

mutual

def chars : Value → List Char
  | .null => "null".toList
  | .bool b => (if b then "true" else "false").toList
  | .int n => (toString n).toList
  | .float x => (numbers.floatText x).toList
  | .str s => quoteChars s.toList
  | .list items => '[' :: (joined (itemChars items) ++ [']'])
  | .table entries => '\x7b' :: (joined (entryChars entries) ++ ['\x7d'])

def itemChars : List Value → List (List Char)
  | [] => []
  | v :: vs => chars v :: itemChars vs

def entryChars : List (String × Value) → List (List Char)
  | [] => []
  | (k, v) :: rest => (quoteChars k.toList ++ ':' :: ' ' :: chars v) :: entryChars rest

end

end Json

/-- A value on one line of JSON. -/
def toJson (v : Value) : String := String.ofList (Json.chars v)

end GrowthAudit.Value
