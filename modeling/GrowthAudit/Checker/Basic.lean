import GrowthAudit.Diagnostic.Basic
import GrowthAudit.Dump.Configuration
import GrowthAudit.Failure

/-!
# Checkers

A checker examines one configuration under given options.  What it finds depends on these two alone;
which of its diagnostics are shown is decided by whoever runs it.  The statistics that it has
written count even where it gives up afterwards.
-/

namespace GrowthAudit

/-- Named values that checkers record, in the order in which they were first written. -/
abbrev Stats := List (String × Value)

/-- Writes all entries of one table of statistics into another. -/
def Stats.update (stats entries : Stats) : Stats :=
  entries.foldl (fun stats e => setEntry e.1 e.2 stats) stats

structure CheckerOutcome where
  stats : Stats := []
  result : Except Failure (List Diagnostic)

structure Checker where
  name : String
  description : String := ""
  ids : List String := []
  severity : Severity := .warning
  /-- What checkers of this sort are called. -/
  family : String
  inspect : (options : Value) → Configuration → CheckerOutcome

namespace Checker

def label (c : Checker) : String := "<" ++ c.family ++ " '" ++ c.name ++ "'>"

/-- The ids of the diagnostics, sorted and each once. -/
def sortedIds (c : Checker) : List String := c.ids.eraseDups.mergeSort

end Checker

end GrowthAudit
