import GrowthAudit.Dump.Configuration
import GrowthAudit.Text.Name

/-!
# Names of scopes

The qualified name of a scope joins its name to those of the records and namespaces around it.
`Configuration.findRecord?` finds the record that a name means: the first one whose qualified name
is the given one, or else the first one with the same last component whose qualified name ends in
it.
-/

namespace GrowthAudit.Configuration

/-- The names of the records and namespaces around a scope, from the inside to the outside.  The
bound is the number of scopes: a chain that is longer goes round in a circle and is cut. -/
def enclosingNames (c : Configuration) : (bound : Nat) → Option Nat → List String
  | 0, _ => []
  | _, none => []
  | bound + 1, some i =>
    match c.scope? i with
    | none => []
    | some s =>
      let names := c.enclosingNames bound s.nestedIn
      if (s.kind = .record ∨ s.kind = .nameSpace) ∧ s.className ≠ "" then s.className :: names
      else names

def qualifiedName (c : Configuration) (i : Nat) : String :=
  match c.scope? i with
  | none => ""
  | some s =>
    "::".intercalate (s.className :: c.enclosingNames c.scopes.length s.nestedIn).reverse

/-- The positions of the scopes of one kind that have a name. -/
def named (c : Configuration) (kind : ScopeKind) : List Nat :=
  (List.range c.scopes.length).filter fun i =>
    match c.scope? i with
    | none => false
    | some s => s.kind == kind && s.className != ""

def className (c : Configuration) (i : Nat) : String := ((c.scope? i).map (·.className)).getD ""

/-- The record that a name means.  Template arguments and colons in front do not count. -/
def findRecord? (c : Configuration) (name : String) : Option Nat :=
  let key := Text.unrooted (Text.untemplated name)
  let records := c.named .record
  (records.find? fun i => c.qualifiedName i == key).or
    (records.find? fun i =>
      c.className i == Text.lastComponent key && Text.endsIn (c.qualifiedName i) key)

/-- The names of the enumerations, each alone and qualified. -/
def enumerationNames (c : Configuration) : List String :=
  (c.named .enumeration).flatMap fun i => [c.className i, c.qualifiedName i]

/-- Whether a name or its last component is the name of an enumeration. -/
def isEnumeration (c : Configuration) (name : String) : Bool :=
  let key := Text.unrooted name
  c.enumerationNames.contains key || c.enumerationNames.contains (Text.lastComponent key)

end GrowthAudit.Configuration
