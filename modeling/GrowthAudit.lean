import GrowthAudit.About
import GrowthAudit.Arguments
import GrowthAudit.Checker.Basic
import GrowthAudit.Checker.Growth
import GrowthAudit.Checker.Registry
import GrowthAudit.Checker.Scripted
import GrowthAudit.CppType.Basic
import GrowthAudit.CppType.Cause
import GrowthAudit.CppType.Throwing
import GrowthAudit.CppType.Verdict
import GrowthAudit.Decimal.Binary
import GrowthAudit.Decimal.Fixed
import GrowthAudit.Decimal.Shortest
import GrowthAudit.Diagnostic.Basic
import GrowthAudit.Diagnostic.OfFinding
import GrowthAudit.Dump.ClassHead
import GrowthAudit.Dump.Configuration
import GrowthAudit.Dump.ContainerUse
import GrowthAudit.Dump.RecordTypes
import GrowthAudit.Dump.Resolution
import GrowthAudit.Dump.ScopeNames
import GrowthAudit.Dump.SpecialMembers
import GrowthAudit.Dump.Specifiers
import GrowthAudit.Dump.Token
import GrowthAudit.Failure
import GrowthAudit.Finding
import GrowthAudit.Location
import GrowthAudit.Main
import GrowthAudit.Program
import GrowthAudit.Proofs.CppType.Ambiguity
import GrowthAudit.Proofs.CppType.Blame
import GrowthAudit.Proofs.CppType.Congruence
import GrowthAudit.Proofs.CppType.DeclarationOrder
import GrowthAudit.Proofs.CppType.Delegation
import GrowthAudit.Proofs.CppType.Doubt
import GrowthAudit.Proofs.CppType.Explanation
import GrowthAudit.Proofs.CppType.Notes
import GrowthAudit.Proofs.CppType.StaticMembers
import GrowthAudit.Proofs.CppType.SubObjects
import GrowthAudit.Proofs.CppType.Truncation
import GrowthAudit.Proofs.CppType.Unexplained
import GrowthAudit.Proofs.Dump.Answers
import GrowthAudit.Proofs.Dump.Assignments
import GrowthAudit.Proofs.Dump.Building
import GrowthAudit.Proofs.Dump.ClassHeads
import GrowthAudit.Proofs.Dump.Components
import GrowthAudit.Proofs.Dump.Construction
import GrowthAudit.Proofs.Dump.ConstructionEnds
import GrowthAudit.Proofs.Dump.ContainerArguments
import GrowthAudit.Proofs.Dump.ContainerNames
import GrowthAudit.Proofs.Dump.Containment
import GrowthAudit.Proofs.Dump.Declarators
import GrowthAudit.Proofs.Dump.DeclaredMembers
import GrowthAudit.Proofs.Dump.DirectBuilding
import GrowthAudit.Proofs.Dump.EndlessScans
import GrowthAudit.Proofs.Dump.Exposure
import GrowthAudit.Proofs.Dump.FailOpen
import GrowthAudit.Proofs.Dump.FirstUses
import GrowthAudit.Proofs.Dump.Headings
import GrowthAudit.Proofs.Dump.Hiding
import GrowthAudit.Proofs.Dump.Lingering
import GrowthAudit.Proofs.Dump.LinkShortcuts
import GrowthAudit.Proofs.Dump.Loops
import GrowthAudit.Proofs.Dump.NameLookup
import GrowthAudit.Proofs.Dump.OutsideArguments
import GrowthAudit.Proofs.Dump.Parentheses
import GrowthAudit.Proofs.Dump.QueryOrder
import GrowthAudit.Proofs.Dump.Settled
import GrowthAudit.Proofs.Dump.TemplateArguments
import GrowthAudit.Proofs.Dump.TrivialCopies
import GrowthAudit.Proofs.Dump.WrittenRows
import GrowthAudit.Proofs.Run.AcceptedOptions
import GrowthAudit.Proofs.Run.ByChecker
import GrowthAudit.Proofs.Run.Combined
import GrowthAudit.Proofs.Run.Contributions
import GrowthAudit.Proofs.Run.Coverage
import GrowthAudit.Proofs.Run.Depth
import GrowthAudit.Proofs.Run.Endings
import GrowthAudit.Proofs.Run.ExitCode
import GrowthAudit.Proofs.Run.FileSuppressions
import GrowthAudit.Proofs.Run.Findings
import GrowthAudit.Proofs.Run.Isolation
import GrowthAudit.Proofs.Run.Locations
import GrowthAudit.Proofs.Run.Lockstep
import GrowthAudit.Proofs.Run.Order
import GrowthAudit.Proofs.Run.Outcome
import GrowthAudit.Proofs.Run.OutputLines
import GrowthAudit.Proofs.Run.Registration
import GrowthAudit.Proofs.Run.RegistryHistory
import GrowthAudit.Proofs.Run.Statistics
import GrowthAudit.Proofs.Run.Stopping
import GrowthAudit.Proofs.Run.Suppressing
import GrowthAudit.Proofs.Run.SuppressionStore
import GrowthAudit.Proofs.Value.EscapedText
import GrowthAudit.Proofs.Value.ReadingBack
import GrowthAudit.Report
import GrowthAudit.Runner
import GrowthAudit.Settings
import GrowthAudit.Suppression
import GrowthAudit.Text.Blank
import GrowthAudit.Text.Digit
import GrowthAudit.Text.Glob
import GrowthAudit.Text.Hex
import GrowthAudit.Text.Integer
import GrowthAudit.Text.Name
import GrowthAudit.Text.Printable
import GrowthAudit.Text.Quoted
import GrowthAudit.Value.Basic
import GrowthAudit.Value.Display
import GrowthAudit.Value.Json
import GrowthAudit.Value.JsonReader
import GrowthAudit.Value.Table
