import GrowthAudit.Checker.Basic
import GrowthAudit.Decimal.Fixed

/-!
# Reports

What a run of checkers found: the diagnostics in order, which of them each checker contributed, the
statistics and the names of the checkers.  `Report.addPass` adds what one checker found in one
configuration, and `Report.append?` joins the report of another configuration.

A checker that runs twice over one configuration has its last diagnostics to its name; over several
configurations they add up.
-/

namespace GrowthAudit

structure Report where
  diagnostics : List Diagnostic := []
  /-- The positions among the diagnostics, under the name of the checker. -/
  byChecker : List (String × List Nat) := []
  stats : Stats := []
  checkers : List String := []
  deriving Inhabited

namespace Report

def elapsedKey (checker : String) : String := checker ++ "_elapsed_ms"

/-- Adds the diagnostics of a checker, the time it took, and all statistics recorded so far. -/
def addPass (r : Report) (checker : String) (ds : List Diagnostic) (elapsed : Number)
    (stats : Stats) : Report :=
  { diagnostics := r.diagnostics ++ ds
    byChecker := setEntry checker (List.range' r.diagnostics.length ds.length) r.byChecker
    stats := Stats.update (setEntry (elapsedKey checker) elapsed.toValue r.stats) stats
    checkers := r.checkers ++ [checker] }

/-- Adds a number to what a key stands for, starting from zero. -/
def addStat (stats : Stats) (entry : String × Value) : Except Failure Stats :=
  match ((stats.lookup entry.1).getD (.int 0)).number?, entry.2.number? with
  | some a, some b =>
    match a.add? b with
    | some sum => .ok (setEntry entry.1 sum.toValue stats)
    | none => .error .numberTooLarge
  | _, _ => .error .statNotNumber

/-- Adds the positions that a checker has in a report that follows `offset` diagnostics. -/
def addPositions (offset : Nat) (byChecker : List (String × List Nat))
    (entry : String × List Nat) : List (String × List Nat) :=
  setEntry entry.1 ((byChecker.lookup entry.1).getD [] ++ entry.2.map (offset + ·)) byChecker

/-- Joins the report of a further configuration.  Statistics are added up, so all are numbers. -/
def append? (r part : Report) : Except Failure Report := do
  let stats ← part.stats.foldlM addStat r.stats
  return {
    diagnostics := r.diagnostics ++ part.diagnostics
    byChecker := part.byChecker.foldl (addPositions r.diagnostics.length) r.byChecker
    stats
    checkers := part.checkers.foldl
      (fun names n => if names.contains n then names else names ++ [n]) r.checkers }

def findingCount (r : Report) : Nat := r.diagnostics.countP (·.id == findingId)

def totalCount (r : Report) : Nat := r.diagnostics.length

/-- The diagnostics in one file. -/
def inFile (r : Report) (file : String) : List Diagnostic :=
  r.diagnostics.filter (·.location.file == file)

/-- The files that diagnostics lie in, sorted, each once. -/
def files (r : Report) : List String :=
  (r.diagnostics.map (·.location.file)).eraseDups.mergeSort

def jsonLines (r : Report) : String := "\n".intercalate (r.diagnostics.map (·.jsonLine))

def plainText (r : Report) : String := "\n".intercalate (r.diagnostics.map (·.plainText))

/-- The positions of the diagnostics of a checker. -/
def positionsOf (r : Report) (checker : String) : List Nat := (r.byChecker.lookup checker).getD []

/-- A time in milliseconds, with one decimal place. -/
def timeText (v : Value) : Except Failure String :=
  match v.number? with
  | some n =>
    match n.toFloat? with
    | some x => .ok (Decimal.fixedText 1 x)
    | none => .error .numberTooLarge
  | none => .error (.timeNotNumber v)

/-- The line of a checker: how many diagnostics it has and how long it took. -/
def summaryLine (r : Report) (checker : String) : Except Failure String := do
  let time ← timeText ((r.stats.lookup (elapsedKey checker)).getD (.int 0))
  return "  " ++ checker ++ ": " ++ toString (r.positionsOf checker).length ++ " findings (" ++
    time ++ "ms)"

/-- One line for the run and one for each checker. -/
def summary (r : Report) : Except Failure String := do
  let lines ← r.checkers.mapM r.summaryLine
  return "\n".intercalate
    (("Checker run complete: " ++ toString r.totalCount ++ " diagnostics") :: lines)

end Report

end GrowthAudit
