import GrowthAudit.CppType.Basic
import GrowthAudit.Dump.Token

/-!
# Specifiers of functions

What stands behind the parameter list of a function: an exception specification, and whether the
function is defaulted or deleted.  The scan goes from token to token up to the body, the end of the
declaration or a list of initialisers, and steps over the parentheses of `noexcept` and `throw`.

Where a token carries a link, the link says which parenthesis closes it, right or wrong; without
links parentheses are counted.  Where a link leads backward the scan may come round to a place where
it has been.  It would then never end, so `Specifiers.read?` has no answer.
-/

namespace GrowthAudit

structure Specifiers where
  spec : ExceptionSpec := .absent
  isDefaulted : Bool := false
  isDeleted : Bool := false
  deriving DecidableEq, Repr, Inhabited

namespace Token

/-- The position of the parenthesis that brings the depth back to zero.  The row of tokens starts at
the given position. -/
def closingFrom : (depth position : Nat) → List Token → Option Nat
  | _, _, [] => none
  | depth, position, t :: ts =>
    if t.text = "(" then closingFrom (depth + 1) (position + 1) ts
    else if t.text = ")" then
      if depth = 1 then some position else closingFrom (depth - 1) (position + 1) ts
    else closingFrom depth (position + 1) ts

/-- The position that closes the parenthesis at the given one. -/
def closing? (ts : List Token) (i : Nat) : Option Nat :=
  match ts[i]?.bind (·.link) with
  | some j => some j
  | none => closingFrom 0 i (ts.drop i)

end Token

namespace Specifiers

/-- What the condition of a `noexcept` makes of it. -/
def ofCondition (texts : List String) : ExceptionSpec :=
  if texts = ["true"] then .noexceptTrue
  else if texts = ["false"] then .noexceptFalse
  else .noexceptDependent

/-- What one token adds, and the position of the next token to look at.  There is none behind a
parenthesis that is never closed. -/
def step (ts : List Token) (i : Nat) (s : Specifiers) : Specifiers × Option Nat :=
  let text := Token.textOf ts[i]?
  let following := Token.textOf ts[i + 1]?
  if text = "noexcept" then
    if following = "(" then
      let close := Token.closing? ts (i + 1)
      let condition := (Token.between ts (i + 1) close).map (·.text)
      ({ s with spec := ofCondition condition }, close.map (· + 1))
    else ({ s with spec := .noexceptPlain }, some (i + 1))
  else if text = "throw" ∧ following = "(" then
    let close := Token.closing? ts (i + 1)
    let types := Token.between ts (i + 1) close
    ({ s with spec := if types.isEmpty then .throwNothing else .throwSome }, close.map (· + 1))
  else if text = "=" then
    ({ s with
        isDefaulted := s.isDefaulted || following == "default"
        isDeleted := s.isDeleted || following == "delete" }, some (i + 1))
  else (s, some (i + 1))

/-- Whether a token ends the specifiers. -/
def isEnd (t : Token) : Bool := t.isOneOf ["\x7b", ";", ":"]

/-- Scans at most `bound` positions, the given one first; `none` where that is not enough. -/
def scan? (ts : List Token) : (bound i : Nat) → Specifiers → Option Specifiers
  | 0, _, _ => none
  | bound + 1, i, s =>
    match ts[i]? with
    | none => some s
    | some t =>
      if isEnd t then some s
      else
        match step ts i s with
        | (s, none) => some s
        | (s, some j) => scan? ts bound j s

/-- A scan that has ended does so too where more positions are allowed. -/
theorem scan?_of_le {ts : List Token} {bound bound' i : Nat} {s r : Specifiers}
    (h : scan? ts bound i s = some r) (hle : bound ≤ bound') : scan? ts bound' i s = some r := by
  induction bound generalizing bound' i s with
  | zero => exact nomatch h
  | succ bound ih =>
    cases bound' with
    | zero => omega
    | succ bound' =>
      rw [scan?] at h ⊢
      cases ht : ts[i]? with
      | none => simpa [ht] using h
      | some t =>
        rw [ht] at h
        by_cases he : isEnd t
        · simpa [he] using h
        · simp only [he] at h ⊢
          cases hs : step ts i s with
          | mk s' next =>
            rw [hs] at h
            cases next with
            | none => exact h
            | some j => exact ih h (by omega)

/-- Reads the specifiers of the function whose name stands at a position; `none` where the scan
never ends.  What comes next depends on the position alone, so a scan that has not ended after as
many positions as there are goes round in a circle. -/
def read? (ts : List Token) (name : Option Nat) : Option Specifiers :=
  match name with
  | none => some {}
  | some i =>
    if Token.textOf ts[i + 1]? = "(" then
      match Token.closing? ts (i + 1) with
      | none => some {}
      | some close => scan? ts (ts.length + 1) (close + 1) {}
    else some {}

/-- The specifiers of a function; those of an endless scan are taken to be absent. -/
def ofFunction (ts : List Token) (name : Option Nat) : Specifiers := (read? ts name).getD {}

end Specifiers

end GrowthAudit
