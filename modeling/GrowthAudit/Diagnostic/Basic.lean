import GrowthAudit.Location
import GrowthAudit.Value.Json

/-!
# Diagnostics

A diagnostic is what a checker reports about one place: a message with a severity, notes that
elaborate on it, and evidence for other programs.  It is written as one line of JSON or as plain
text with one line for the message and one for each note.
-/

namespace GrowthAudit

inductive Severity where
  | error
  | warning
  | style
  | performance
  | portability
  | information
  deriving DecidableEq, Repr, Inhabited

def Severity.word : Severity → String
  | error => "error"
  | warning => "warning"
  | style => "style"
  | performance => "performance"
  | portability => "portability"
  | information => "information"

/-- How sure a diagnostic is: high if every step of its explanation is proven, medium if the verdict
holds but no cause was found, low for a guess. -/
inductive Confidence where
  | high
  | medium
  | low
  deriving DecidableEq, Repr, Inhabited

structure Note where
  message : String
  location : Location
  deriving DecidableEq, Repr, Inhabited

def Note.plainText (n : Note) : String := n.location.text ++ ": note: " ++ n.message

/-- One step of an explanation for other programs. -/
structure EvidenceStep where
  rule : String
  record : String
  recordSite : String
  blamed : String
  blamedSite : String
  deriving DecidableEq, Repr, Inhabited

/-- What a finding rests on, for other programs. -/
structure Evidence where
  container : String
  elementType : String
  chain : List EvidenceStep
  deriving DecidableEq, Repr, Inhabited

/-- The component that reports diagnostics, and the kind of its findings. -/
def addonName : String := "vector-pessimization"

def findingId : String := "vectorPessimization"

structure Diagnostic where
  id : String
  message : String
  severity : Severity
  location : Location
  confidence : Confidence := .high
  checker : String := ""
  addon : String := addonName
  extra : String := ""
  notes : List Note := []
  evidence : Option Evidence := none
  deriving DecidableEq, Repr, Inhabited

namespace Diagnostic

/-- The fields that the line format carries, in its order. -/
def summary (d : Diagnostic) : Value :=
  .table [("file", .str d.location.file), ("linenr", .int d.location.line),
    ("column", .int d.location.column), ("severity", .str d.severity.word),
    ("message", .str d.message), ("addon", .str d.addon), ("errorId", .str d.id),
    ("extra", .str d.extra)]

/-- One line of JSON. -/
def jsonLine (d : Diagnostic) : String := d.summary.toJson

/-- The line of the message alone. -/
def headline (d : Diagnostic) : String :=
  d.location.text ++ ": " ++ d.severity.word ++ ": " ++ d.message ++ " [" ++ d.id ++ "]"

/-- Plain text: a line for the message and one for each note. -/
def plainText (d : Diagnostic) : String :=
  "\n".intercalate (d.headline :: d.notes.map (·.plainText))

end Diagnostic

end GrowthAudit
