import GrowthAudit.Dump.RecordTypes

/-!
# Uses of containers

A container is used where its name stands in front of a list of template arguments, behind the
qualifiers that belong to its configured name.  The element type is the first argument.  At each
location only the first use counts.

Of two configured names with the same last component the later one is looked for.
-/

namespace GrowthAudit

/-- A use of a container, with the tokens of the element type. -/
structure ContainerUse where
  container : String
  element : List Token
  location : Location
  deriving DecidableEq, Repr

/-- A use of a container whose element type is known. -/
structure ContainerSite where
  container : String
  element : CppType
  location : Location

namespace ContainerUse

/-- Whether the tokens in front, the nearest first, are the given qualifiers, the innermost first.
A qualifier that is empty is also found where the tokens end. -/
def followsQualifiers : List String → List Token → Bool
  | [], _ => true
  | q :: qs, before =>
    Token.textOf before.head? == "::" && Token.textOf before.tail.head? == q &&
      followsQualifiers qs (before.drop 2)

/-- The tokens of the first template argument, given those behind the opening bracket; `none` where
a block or the end of a declaration comes first. -/
def firstArgument? : (depth : Nat) → List Token → Option (List Token)
  | _, [] => some []
  | depth, t :: ts =>
    if t.isOneOf ["<", "("] then (firstArgument? (depth + 1) ts).map (t :: ·)
    else if t.isOneOf [">", ")"] then
      if depth = 0 then some [] else (firstArgument? (depth - 1) ts).map (t :: ·)
    else if t.text = "," ∧ depth = 0 then some []
    else if t.isOneOf [";", "\x7b", "\x7d"] then none
    else (firstArgument? depth ts).map (t :: ·)

/-- The last component of a configured name and the qualifiers in front of it, innermost first. -/
def nameParts (name : String) : String × List String :=
  match (Text.components name).reverse with
  | [] => ("", [])
  | last :: qualifiers => (last, qualifiers)

/-- The configured name with a given last component. -/
def named? (names : List String) (last : String) : Option String :=
  names.reverse.find? fun n => (nameParts n).1 == last

/-- The use of one of the containers whose name stands at a position. -/
def at? (ts : List Token) (names : List String) (i : Nat) : Option ContainerUse := do
  let t ← ts[i]?
  let name ← named? names t.text
  let bracket ← ts[i + 1]?
  if !followsQualifiers (nameParts name).2 (ts.take i).reverse || bracket.text != "<" then none
  let element ← firstArgument? 0 (Token.between ts (i + 1) bracket.link)
  if element.isEmpty then none
  return ⟨name, element, t.location⟩

/-- Keeps the first use at each location. -/
def distinct (seen : List Location) : List ContainerUse → List ContainerUse
  | [] => []
  | u :: us =>
    if seen.contains u.location then distinct seen us
    else u :: distinct (u.location :: seen) us

/-- All uses of the containers, in the order of the tokens. -/
def all (ts : List Token) (containers : List String) : List ContainerUse :=
  distinct [] ((List.range ts.length).filterMap (at? ts (containers.map Text.unrooted)))

end ContainerUse

/-- All uses of the containers with their element types. -/
def Configuration.containerSites (c : Configuration) (containers : List String) (memo : Memo) :
    List ContainerSite × Memo :=
  Memo.traverse
    (fun u memo =>
      let (element, memo) := c.typeOf (c.lookupTokens u.element) memo
      (⟨u.container, element, u.location⟩, memo))
    (ContainerUse.all c.tokens containers) memo

end GrowthAudit
