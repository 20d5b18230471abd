import GrowthAudit.Decimal.Binary
import GrowthAudit.Diagnostic.Basic
import GrowthAudit.Dump.Configuration
import GrowthAudit.Failure
import GrowthAudit.Text.Glob
import GrowthAudit.Text.Name

/-!
# Suppressions

Which diagnostics are not wanted.  A suppression names the id of diagnostics, or a star for all of
them, and holds everywhere, at one line of a file, or in the files that match a pattern.  Comments
of a configuration are read into suppressions; a comment at a line also covers the line below.

`Suppressions.covers` decides whether a diagnostic is suppressed.  Loading the comments of a
configuration stops at the first one whose line cannot be read, and keeps those in front of it.
-/

namespace GrowthAudit

/-- Where a suppression holds. -/
inductive Reach where
  | everywhere
  | line (file : String) (line : Int)
  | files (pattern : String)
  deriving DecidableEq, Repr

structure Suppression where
  id : String
  reach : Reach
  deriving DecidableEq, Repr

/-- The suppressions that are in force: ids that are off everywhere, ids at lines of files, and ids
in files that match a pattern. -/
structure Suppressions where
  everywhere : List String := []
  lines : List ((String × Int) × String) := []
  files : List (String × String) := []
  deriving DecidableEq, Repr, Inhabited

namespace Suppressions

def add (s : Suppressions) (entry : Suppression) : Suppressions :=
  match entry.reach with
  | .everywhere => { s with everywhere := entry.id :: s.everywhere }
  | .line file line => { s with lines := ((file, line), entry.id) :: s.lines }
  | .files pattern => { s with files := (pattern, entry.id) :: s.files }

/-- Whether the id of a suppression stands for the id of a diagnostic. -/
def meansId (id diagnosticId : String) : Bool := id == diagnosticId || id == "*"

/-- Whether a file is meant by a pattern: it is the pattern, ends in it, or matches it. -/
def meansFile (pattern file : String) : Bool :=
  pattern == file || Text.endsIn file pattern || Text.globMatches pattern file

/-- Whether a diagnostic is suppressed. -/
def covers (s : Suppressions) (d : Diagnostic) : Bool :=
  s.everywhere.any (meansId · d.id) ||
    [0, 1].any (fun above => s.lines.any fun e =>
      e.1 == (d.location.file, d.location.line - above) && meansId e.2 d.id) ||
    s.files.any fun e => meansId e.2 d.id && meansFile e.1 d.location.file

/-- The diagnostics that are left. -/
def filter (s : Suppressions) (ds : List Diagnostic) : List Diagnostic :=
  ds.filter (!s.covers ·)

end Suppressions

namespace SuppressionComment

/-- The line of a comment: an integer as it is, the integer part of a double, and a text that is
read as an integer. -/
def lineNumber : Value → Except Failure Int
  | .bool b => .ok (if b then 1 else 0)
  | .int n => .ok n
  | .float x =>
    match Decimal.integerPart? x with
    | some n => .ok n
    | none => .error (if x.isNaN then .undefinedLine else .infiniteLine)
  | .str s =>
    match Text.readInteger s with
    | .ok n => .ok n
    | .error fault => .error (.badLine s fault)
  | _ => .error .lineNotNumber

/-- The suppression that a comment stands for, `none` if it names no id.  Without a file it holds
everywhere, and without a line in the whole file. -/
def suppression? (c : SuppressionComment) : Except Failure (Option Suppression) :=
  if c.id = "" then .ok none
  else if c.file = "" then .ok (some ⟨c.id, .everywhere⟩)
  else if c.line.isTruthy then
    match lineNumber c.line with
    | .ok n => .ok (some ⟨c.id, .line c.file n⟩)
    | .error failure => .error failure
  else .ok (some ⟨c.id, .files c.file⟩)

end SuppressionComment

namespace Suppressions

/-- Adds the suppressions of comments up to the first one that cannot be read, and says why that one
could not. -/
def load (s : Suppressions) : List SuppressionComment → Suppressions × Option Failure
  | [] => (s, none)
  | c :: cs =>
    match c.suppression? with
    | .error failure => (s, some failure)
    | .ok none => s.load cs
    | .ok (some entry) => (s.add entry).load cs

end Suppressions

end GrowthAudit
