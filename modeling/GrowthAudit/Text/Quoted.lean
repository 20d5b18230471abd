import GrowthAudit.Text.Hex
import GrowthAudit.Text.Printable

/-!
# Quoted text

A text between quotes, as messages show a value that is a text.  The quote is the apostrophe,
unless the text holds apostrophes and no double quote.  A backslash, the chosen quote and the line
and tab controls have escapes of two characters; every other character that is not printable is
written by its code, in the shortest of the three widths that hold it.
-/

namespace GrowthAudit.Text

def apostrophe : Char := '\x27'

def doubleQuote : Char := '\x22'

/-- The quote that needs no escape inside the text, where there is one. -/
def chooseQuote (cs : List Char) : Char :=
  if cs.contains apostrophe && !cs.contains doubleQuote then doubleQuote else apostrophe

/-- A character inside quotes. -/
def quoteChar (quote c : Char) : List Char :=
  if c = quote ∨ c = '\\' then ['\\', c]
  else if c = '\n' then ['\\', 'n']
  else if c = '\r' then ['\\', 'r']
  else if c = '\t' then ['\\', 't']
  else if isPrintable c then [c]
  else if c.toNat < 0x100 then '\\' :: 'x' :: hexCode 2 c.toNat
  else if c.toNat < 0x10000 then '\\' :: 'u' :: hexCode 4 c.toNat
  else '\\' :: 'U' :: hexCode 8 c.toNat

def quoteChars (cs : List Char) : List Char :=
  let quote := chooseQuote cs
  quote :: (cs.flatMap (quoteChar quote) ++ [quote])

def quoted (s : String) : String := String.ofList (quoteChars s.toList)

end GrowthAudit.Text
