import GrowthAudit.Checker.Basic
import GrowthAudit.Diagnostic.OfFinding
import GrowthAudit.Dump.ContainerUse
import GrowthAudit.Settings

/-!
# The growth checker

Reports the uses of containers whose elements are copied and not moved when the container grows,
because the move constructor of the element type may throw.
-/

namespace GrowthAudit

namespace GrowthChecker

def name : String := addonName

def siteCountKey : String := name ++ "_sites"

/-- The diagnostic of a site, if it is a finding. -/
def diagnose? (maxDepth : Int) (site : ContainerSite) : Option Diagnostic :=
  (site.element.audit? site.container site.location maxDepth).map (·.diagnostic name)

def inspect (options : Value) (c : Configuration) : CheckerOutcome :=
  match Settings.ofOptions options with
  | .error failure => { result := .error failure }
  | .ok settings =>
    let sites := (c.containerSites settings.containers []).1
    { stats := [(siteCountKey, .int sites.length)]
      result := .ok (sites.filterMap (diagnose? settings.maxDepth)) }

end GrowthChecker

def growthChecker : Checker :=
  { name := GrowthChecker.name
    description := "Container growth copies elements because moving may throw"
    ids := [findingId]
    severity := .performance
    family := "VectorPessimizationChecker"
    inspect := GrowthChecker.inspect }

end GrowthAudit
