/-!
# Locations

A place in a source file.  The place that is not known has an empty file name and stands at zero.
-/

namespace GrowthAudit

structure Location where
  file : String := ""
  line : Int := 0
  column : Int := 0
  deriving DecidableEq, Repr, Inhabited

/-- File and line, and the column unless it is zero. -/
def Location.text (l : Location) : String :=
  l.file ++ ":" ++ toString l.line ++ (if l.column = 0 then "" else ":" ++ toString l.column)

end GrowthAudit
