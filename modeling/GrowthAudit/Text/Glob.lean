/-!
# File patterns

A pattern is a row of pieces: a star stands for any text, every other piece for one character.  A
question mark takes any character, a bracketed set the characters it lists, and all else itself.
There is no escape character, and a bracket that is never closed stands for itself.

A set lists characters and ranges.  An exclamation mark in front takes the complement, and a closing
bracket in first place is a member.  A range whose ends are out of order is dropped together with
its ends, so that what is left decides whether the set is a complement.

`Glob.accepts` says what a pattern matches, where a star passes over any front of the text;
`globMatches` decides it without trying out how many stars share the text, and `globMatches_eq` says
that the two agree.
-/

namespace GrowthAudit.Text

/-- A class of characters: closed ranges, or the complement of their union. -/
structure CharSet where
  complement : Bool
  ranges : List (Char × Char)
  deriving DecidableEq, Repr

def CharSet.contains (s : CharSet) (c : Char) : Bool :=
  s.ranges.any (fun r => r.1 ≤ c && c ≤ r.2) != s.complement

def CharSet.any : CharSet := ⟨true, []⟩

def CharSet.only (c : Char) : CharSet := ⟨false, [(c, c)]⟩

/-- A piece of a pattern. -/
inductive GlobPiece where
  | star
  | one (set : CharSet)
  deriving DecidableEq, Repr

namespace Glob

/-- A set's text cut at the hyphens that make ranges: each hyphen stands between the last character
of one chunk and the first of the next, so two hyphens are at least three characters apart.  The
number counts the characters that are still to be kept before a hyphen may cut. -/
def chunks : (keep : Nat) → (chunk : List Char) → List Char → List (List Char)
  | _, chunk, [] => [chunk.reverse]
  | 0, chunk, c :: cs =>
    if c = '-' then
      if cs.isEmpty then [(c :: chunk).reverse] else chunk.reverse :: chunks 2 [] cs
    else chunks 0 (c :: chunk) cs
  | keep + 1, chunk, c :: cs => chunks keep (c :: chunk) cs

/-- Drops the ranges whose ends are out of order, the last one first. -/
def dropEmptyRanges : List (List Char) → List (List Char)
  | [] => []
  | a :: rest =>
    match dropEmptyRanges rest with
    | [] => [a]
    | b :: rest' =>
      match a.getLast?, b.head? with
      | some x, some y => if y < x then (a.dropLast ++ b.tail) :: rest' else a :: b :: rest'
      | _, _ => a :: b :: rest'

/-- A mark of a set: a character, or a hyphen that makes a range. -/
inductive Mark where
  | char (c : Char)
  | hyphen

/-- The marks of a set's chunks. -/
def marks : List (List Char) → List Mark
  | [] => []
  | [a] => a.map .char
  | a :: rest => a.map .char ++ .hyphen :: marks rest

/-- The ranges that marks denote.  A hyphen without a character on either side is a member. -/
def ranges : List Mark → List (Char × Char)
  | [] => []
  | .char a :: .hyphen :: .char b :: rest => (a, b) :: ranges rest
  | .char a :: rest => (a, a) :: ranges rest
  | .hyphen :: rest => ('-', '-') :: ranges rest

/-- The set between two brackets. -/
def setOf (inside : List Char) : CharSet :=
  let keep := if inside.head? = some '!' then 2 else 1
  match marks (dropEmptyRanges (chunks keep [] inside)) with
  | .char '!' :: rest => ⟨true, ranges rest⟩
  | all => ⟨false, ranges all⟩

/-- The inside of a bracketed set and what follows it, given what follows the opening bracket. -/
def splitSet? (cs : List Char) : Option (List Char × List Char) :=
  let (bang, cs) := if cs.head? = some '!' then (['!'], cs.tail) else ([], cs)
  let (first, cs) := if cs.head? = some ']' then ([']'], cs.tail) else ([], cs)
  match cs.dropWhile (· ≠ ']') with
  | [] => none
  | _ :: rest => some (bang ++ first ++ cs.takeWhile (· ≠ ']'), rest)

/-- The pieces of a pattern.  The bound is the length of what is left to read. -/
def pieces : (bound : Nat) → List Char → List GlobPiece
  | _, [] => []
  | 0, _ => []
  | bound + 1, c :: cs =>
    if c = '*' then .star :: pieces bound cs
    else if c = '?' then .one .any :: pieces bound cs
    else if c = '[' then
      match splitSet? cs with
      | some (inside, rest) => .one (setOf inside) :: pieces bound rest
      | none => .one (.only c) :: pieces bound cs
    else .one (.only c) :: pieces bound cs

/-- What is left of a text where characters are dropped from its front: from the text itself down to
the empty one. -/
def rests : List Char → List (List Char)
  | [] => [[]]
  | c :: cs => (c :: cs) :: rests cs

/-- Whether a text is made of the pieces, one after the other. -/
def accepts : List GlobPiece → List Char → Bool
  | [], cs => cs.isEmpty
  | .star :: ps, cs => (rests cs).any (accepts ps)
  | .one _ :: _, [] => false
  | .one set :: ps, c :: cs => set.contains c && accepts ps cs

/-- For each place in a list, whether it or a later one is true. -/
def anyFrom (bs : List Bool) : List Bool :=
  bs.foldr (fun b later => (b || later.headD false) :: later) []

/-- Whether the rests of a text are made of the pieces, an answer for each of them.  Every piece is
looked at once for each rest, however many stars there are. -/
def acceptsRests : List GlobPiece → List Char → List Bool
  | [], cs => (rests cs).map (·.isEmpty)
  | .star :: ps, cs => anyFrom (acceptsRests ps cs)
  | .one set :: ps, cs =>
    cs.zipWith (fun c accepted => set.contains c && accepted) (acceptsRests ps cs).tail ++ [false]

theorem headD_map_rests (p : List Char → Bool) (cs : List Char) :
    ((rests cs).map p).headD false = p cs := by
  cases cs <;> rfl

theorem anyFrom_map_rests (p : List Char → Bool) (cs : List Char) :
    anyFrom ((rests cs).map p) = (rests cs).map fun rest => (rests rest).any p := by
  induction cs with
  | nil => simp [anyFrom, rests]
  | cons c cs ih =>
    rw [rests, List.map_cons, List.map_cons, ← ih]
    refine congrArg (· :: _) ?_
    rw [rests, List.any_cons]
    refine congrArg (p (c :: cs) || ·) ?_
    rw [← headD_map_rests (fun rest => (rests rest).any p) cs, ← ih]
    rfl

theorem acceptsRests_eq (ps : List GlobPiece) (cs : List Char) :
    acceptsRests ps cs = (rests cs).map (accepts ps) := by
  induction ps generalizing cs with
  | nil => rfl
  | cons piece ps ih =>
    cases piece with
    | star =>
      rw [acceptsRests, ih, anyFrom_map_rests]
      rfl
    | one set =>
      rw [acceptsRests, ih]
      induction cs with
      | nil => rfl
      | cons c cs ihc =>
        rw [rests, List.map_cons, List.map_cons, ← ihc]
        cases cs <;> rfl

end Glob

/-- Whether a text matches a pattern. -/
def globMatches (pattern text : String) : Bool :=
  (Glob.acceptsRests (Glob.pieces pattern.length pattern.toList) text.toList).headD false

theorem globMatches_eq (pattern text : String) :
    globMatches pattern text =
      Glob.accepts (Glob.pieces pattern.length pattern.toList) text.toList := by
  rw [globMatches, Glob.acceptsRests_eq, Glob.headD_map_rests]

end GrowthAudit.Text
