import GrowthAudit.Dump.Token

/-!
# Class heads

The head of a class is what stands between the keyword and the opening brace of its body: the name,
and behind a colon the list of bases.  It is found by going back from the brace to the keyword; a
brace or semicolon on the way means that there is no head.
-/

namespace GrowthAudit

/-- A base as it is written: the tokens of its name, after the keywords in front of it. -/
structure BaseClause where
  isVirtual : Bool
  name : List Token
  deriving DecidableEq, Repr

structure ClassHead where
  /-- The position of the name. -/
  name : Option Nat
  /-- The tokens behind the colon. -/
  bases : List Token
  deriving DecidableEq, Repr

namespace ClassHead

/-- The position of the last class keyword among tokens in reverse order, unless the end of an
earlier declaration or the start of a block comes first. -/
def keywordPosition? : List Token → Option Nat
  | [] => none
  | t :: before =>
    if t.isOneOf ["class", "struct", "union"] then some before.length
    else if t.isOneOf [";", "\x7d", "\x7b"] then none
    else keywordPosition? before

/-- The head in front of the brace at a position. -/
def ofBody (ts : List Token) (body : Nat) : ClassHead :=
  match keywordPosition? (ts.take body).reverse with
  | none => ⟨none, []⟩
  | some keyword =>
    let head := (Token.between ts (keyword + 1) (some body)).dropWhile
      (·.isOneOf ["final", "alignas"])
    ⟨some (keyword + 1), if Token.textOf head.head? = ":" then head.tail else []⟩

end ClassHead

namespace BaseClause

/-- The keywords that may stand in front of the name of a base. -/
def isKeyword (t : Token) : Bool := t.isOneOf ["virtual", "public", "protected", "private"]

/-- The base that a group of tokens declares, if it has a name. -/
def ofGroup? (group : List Token) : Option BaseClause :=
  let name := group.dropWhile isKeyword
  if name.isEmpty then none
  else some ⟨(group.takeWhile isKeyword).any (·.text == "virtual"), name⟩

/-- The bases between commas. -/
def ofTokens (ts : List Token) : List BaseClause := (Token.splitCommas ts).filterMap ofGroup?

end BaseClause

end GrowthAudit
