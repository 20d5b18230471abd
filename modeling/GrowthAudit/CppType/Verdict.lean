import GrowthAudit.CppType.Throwing

/-!
# Verdicts

A growing container moves its elements only if moving cannot throw; otherwise it copies them.
`CppType.degrades` says that it copies: the definition of the type is visible, the type is not
trivially copyable, and it has no move constructor or one that throws.  What is unknown is given the
benefit of the doubt, so a type without a visible definition never degrades.
-/

namespace GrowthAudit

inductive Verdict where
  | safe
  | degrades
  deriving DecidableEq, Repr

/-- There is a usable move constructor and it is not known to throw. -/
def Record.hasSafeMove (r : Record CppType) : Bool :=
  match r.moveCtor? with
  | none => false
  | some c => c.throwing (some r) != .yes

def CppType.degrades (t : CppType) : Bool :=
  !t.isTrivial &&
    match t.definition with
    | none => false
    | some r => !r.hasSafeMove

def CppType.verdict (t : CppType) : Verdict := if t.degrades then .degrades else .safe

end GrowthAudit
