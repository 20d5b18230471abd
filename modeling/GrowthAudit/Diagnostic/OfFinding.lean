import GrowthAudit.Diagnostic.Basic
import GrowthAudit.Finding

/-!
# Diagnostics of findings

A finding becomes a diagnostic whose notes walk down the explanation: for each step where the record
is defined, and then either the throwing constructor or the member or base that leads on.  Without
an explanation the one note says where the element type is defined.
-/

namespace GrowthAudit

def definedHere (name : String) (site : Location) : Note := ⟨"'" ++ name ++ "' defined here", site⟩

namespace Blamed

def note (b : Blamed) : Note :=
  match b.type? with
  | none => ⟨"throwing move constructor declared here", b.location⟩
  | some type => ⟨"because the move constructor of '" ++ type.name ++ "' may throw", b.location⟩

end Blamed

namespace CauseStep

def notes (s : CauseStep) : List Note := [definedHere s.record s.site, s.blamed.note]

def evidence (s : CauseStep) : EvidenceStep :=
  ⟨s.blamed.rule, s.record, s.site.text, s.blamed.name, s.blamed.location.text⟩

end CauseStep

namespace Finding

def message (f : Finding) : String :=
  "'" ++ f.spelling ++ "' will copy elements on resize instead of moving because the move " ++
    "constructor of '" ++ f.element.name ++ "' may throw"

def notes (f : Finding) : List Note :=
  if f.chain.isEmpty then
    (f.element.definition.map fun r => definedHere f.element.name r.site).toList
  else f.chain.flatMap (·.notes)

def diagnostic (f : Finding) (checker : String) : Diagnostic :=
  { id := findingId
    message := f.message
    severity := .performance
    location := f.site
    confidence := if f.chain.isEmpty then .medium else .high
    checker
    extra := " -> ".intercalate (f.chain.map (·.blamed.name))
    notes := f.notes
    evidence := some ⟨f.container, f.element.name, f.chain.map (·.evidence)⟩ }

end Finding

end GrowthAudit
