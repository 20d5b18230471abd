import GrowthAudit.CppType.Cause
import GrowthAudit.Text.Name

/-!
# Findings

A finding is one place where a container is used with an element type that it will copy when it
grows, together with the explanation.  `CppType.audit?` decides whether a use is a finding.
-/

namespace GrowthAudit

structure Finding where
  container : String
  element : CppType
  site : Location
  chain : List CauseStep

/-- The container that is examined unless others are configured. -/
def defaultContainer : String := "std::vector"

/-- The unqualified name of the container with its argument. -/
def Finding.spelling (f : Finding) : String :=
  Text.lastComponent f.container ++ "<" ++ f.element.name ++ ">"

/-- The finding at a use of a container, `none` where the elements will be moved. -/
def CppType.audit? (element : CppType) (container : String) (site : Location) (maxDepth : Int) :
    Option Finding :=
  if element.degrades then some ⟨container, element, site, element.explain 1 maxDepth⟩ else none

end GrowthAudit
