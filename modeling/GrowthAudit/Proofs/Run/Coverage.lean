import GrowthAudit.Proofs.Run.Suppressing

/-!
# What suppressions cover

A state of the suppressions is asked one thing only: whether it covers a diagnostic.  This file says
what each suppression contributes to the answer, so that a state can be thought of as the set of the
suppressions that were added to it, in any order and any number of times.

* `Suppression.covers`, `SuppressionComment.covers`, `Configuration.suppresses`: what a suppression,
  a comment and a configuration cover on their own.
* `Suppression.Concerns`: which diagnostics a suppression is about.
* `SuppressionComment.StandsFor`, `SuppressionComment.Fails`: what a comment records, and why it
  cannot be read.
* `Suppressions.covers_add`: adding a suppression covers what it covers, and nothing else.
* `Suppressions.covers_load`: the same for comments that are all readable.
* `Configuration.fault?`: why the comments of a configuration cannot be loaded.
* `Configuration.readable_iff`: whether comments can be loaded does not depend on the state.
-/

namespace GrowthAudit

/-- Whether a suppression with this reach holds at a location.  At a line it also holds at the line
below. -/
def Reach.holdsAt (reach : Reach) (l : Location) : Bool :=
  match reach with
  | .everywhere => true
  | .line file n => file == l.file && (n == l.line || n + 1 == l.line)
  | .files pattern => Suppressions.meansFile pattern l.file

/-- Whether a suppression covers a diagnostic. -/
def Suppression.covers (entry : Suppression) (d : Diagnostic) : Bool :=
  Suppressions.meansId entry.id d.id && entry.reach.holdsAt d.location

/-- Whether a comment covers a diagnostic.  A comment that cannot be read, or names no id, covers
nothing. -/
def SuppressionComment.covers (comment : SuppressionComment) (d : Diagnostic) : Bool :=
  match comment.suppression? with
  | .ok (some entry) => entry.covers d
  | _ => false

/-- Whether a comment of the configuration covers a diagnostic. -/
def Configuration.suppresses (c : Configuration) (d : Diagnostic) : Bool :=
  c.suppressions.any (·.covers d)

/-- The comments can all be loaded. -/
def Configuration.Readable (c : Configuration) : Prop :=
  ∀ comment ∈ c.suppressions, ∃ entry?, comment.suppression? = .ok entry?

/-! ### Suppressions -/

/-- The places at which a suppression with a given reach holds. -/
inductive Reach.Includes (l : Location) : Reach → Prop
  | everywhere : Includes l .everywhere
  | line {file : String} {n : Int} : l.file = file → l.line = n ∨ l.line = n + 1 →
      Includes l (.line file n)
  | files {pattern : String} : l.file = pattern ∨ pattern.toList <:+ l.file.toList ∨
      Text.globMatches pattern l.file = true → Includes l (.files pattern)

/-- A suppression is about the diagnostics with its id, or about all of them if its id is a star, at
the places where it holds. -/
structure Suppression.Concerns (entry : Suppression) (d : Diagnostic) : Prop where
  id : entry.id = d.id ∨ entry.id = "*"
  reach : entry.reach.Includes d.location

theorem Reach.holdsAt_iff {reach : Reach} {l : Location} :
    reach.holdsAt l = true ↔ reach.Includes l := by
  cases reach with
  | everywhere => exact ⟨fun _ => .everywhere, fun _ => rfl⟩
  | line file n =>
    rw [holdsAt, Bool.and_eq_true, Bool.or_eq_true, beq_iff_eq, beq_iff_eq, beq_iff_eq]
    constructor
    · rintro ⟨hfile, hline⟩
      exact .line hfile.symm (hline.imp Eq.symm Eq.symm)
    · rintro ⟨⟩
      next hfile hline => exact ⟨hfile.symm, hline.imp Eq.symm Eq.symm⟩
  | files pattern =>
    rw [holdsAt, Suppressions.meansFile, Text.endsIn, Bool.or_eq_true, Bool.or_eq_true, beq_iff_eq,
      List.isSuffixOf_iff_suffix, or_assoc, eq_comm]
    constructor
    · exact .files
    · rintro ⟨⟩
      assumption

theorem Suppression.covers_iff {entry : Suppression} {d : Diagnostic} :
    entry.covers d = true ↔ entry.Concerns d := by
  rw [covers, Suppressions.meansId, Bool.and_eq_true, Bool.or_eq_true, beq_iff_eq, beq_iff_eq,
    Reach.holdsAt_iff]
  exact ⟨fun h => ⟨h.1, h.2⟩, fun h => ⟨h.id, h.reach⟩⟩

namespace Suppressions

variable (s : Suppressions) (d : Diagnostic)

/-- **A suppression covers the same in every state.** -/
theorem covers_add (entry : Suppression) :
    (s.add entry).covers d = (entry.covers d || s.covers d) := by
  obtain ⟨id, reach⟩ := entry
  cases reach with
  | everywhere =>
    simp [covers, add, Suppression.covers, Reach.holdsAt, Bool.or_assoc]
  | line file n =>
    have hbelow : (n + 1 == d.location.line) = (n == d.location.line - 1) := by
      rw [Bool.eq_iff_iff, beq_iff_eq, beq_iff_eq]
      omega
    rw [Bool.eq_iff_iff]
    simp only [covers, add, Suppression.covers, Reach.holdsAt, hbelow, List.any_cons, List.any_nil,
      Bool.or_eq_true, Bool.and_eq_true, beq_iff_eq, Prod.mk.injEq, Int.sub_zero]
    tauto
  | files pattern =>
    rw [Bool.eq_iff_iff]
    simp only [covers, add, Suppression.covers, Reach.holdsAt, List.any_cons, Bool.or_eq_true,
      Bool.and_eq_true]
    tauto

/-- Comments that are all readable cover the same in every state. -/
theorem covers_load {comments : List SuppressionComment} (h : (s.load comments).2 = none) :
    (s.load comments).1.covers d = (s.covers d || comments.any (·.covers d)) := by
  induction comments generalizing s with
  | nil => simp [load]
  | cons comment comments ih =>
    rw [load] at h ⊢
    rw [List.any_cons, SuppressionComment.covers]
    cases hread : comment.suppression? with
    | error failure =>
      rw [hread] at h
      cases h
    | ok entry? =>
      rw [hread] at h
      cases entry? with
      | none => simpa using ih s h
      | some entry =>
        simp only at h ⊢
        rw [ih _ h, covers_add, Bool.or_comm (entry.covers d), Bool.or_assoc]

end Suppressions

/-! ### Comments -/

namespace SuppressionComment

variable {comment : SuppressionComment}

/-- The suppression that a comment stands for.  One that names no id stands for none. -/
inductive StandsFor (comment : SuppressionComment) : Suppression → Prop
  | everywhere : comment.id ≠ "" → comment.file = "" →
      StandsFor comment ⟨comment.id, .everywhere⟩
  | line {n : Int} : comment.id ≠ "" → comment.file ≠ "" → comment.line.isTruthy = true →
      lineNumber comment.line = .ok n → StandsFor comment ⟨comment.id, .line comment.file n⟩
  | files : comment.id ≠ "" → comment.file ≠ "" → comment.line.isTruthy = false →
      StandsFor comment ⟨comment.id, .files comment.file⟩

/-- A comment stops the loading if it has an id, a file and a line, and this line is no integer. -/
structure Fails (comment : SuppressionComment) (failure : Failure) : Prop where
  id : comment.id ≠ ""
  file : comment.file ≠ ""
  given : comment.line.isTruthy = true
  line : lineNumber comment.line = .error failure

theorem StandsFor.suppression?_eq {entry : Suppression} (h : comment.StandsFor entry) :
    comment.suppression? = .ok (some entry) := by
  cases h with
  | everywhere hid hfile => rw [suppression?, if_neg hid, if_pos hfile]
  | line hid hfile hgiven hline =>
    rw [suppression?, if_neg hid, if_neg hfile, if_pos hgiven, hline]
  | files hid hfile hgiven =>
    rw [suppression?, if_neg hid, if_neg hfile, if_neg (Bool.eq_false_iff.mp hgiven)]

theorem Fails.suppression?_eq {failure : Failure} (h : comment.Fails failure) :
    comment.suppression? = .error failure := by
  rw [suppression?, if_neg h.id, if_neg h.file, if_pos h.given, h.line]

/-- A comment names no id, stands for a suppression, or fails. -/
theorem standsFor_or_fails (comment : SuppressionComment) :
    comment.id = "" ∨ (∃ entry, comment.StandsFor entry) ∨ ∃ failure, comment.Fails failure := by
  by_cases hid : comment.id = ""
  · exact .inl hid
  refine .inr ?_
  by_cases hfile : comment.file = ""
  · exact .inl ⟨_, .everywhere hid hfile⟩
  by_cases hgiven : comment.line.isTruthy = true
  · cases hline : lineNumber comment.line with
    | ok n => exact .inl ⟨_, .line hid hfile hgiven hline⟩
    | error failure => exact .inr ⟨failure, hid, hfile, hgiven, hline⟩
  · exact .inl ⟨_, .files hid hfile (Bool.eq_false_iff.mpr hgiven)⟩

theorem suppression?_eq_some_iff {entry : Suppression} :
    comment.suppression? = .ok (some entry) ↔ comment.StandsFor entry := by
  refine ⟨fun h => ?_, StandsFor.suppression?_eq⟩
  rcases comment.standsFor_or_fails with hid | ⟨entry', hentry⟩ | ⟨failure, hfails⟩
  · rw [suppression?, if_pos hid] at h
    cases h
  · cases h.symm.trans hentry.suppression?_eq
    exact hentry
  · cases h.symm.trans hfails.suppression?_eq

theorem suppression?_eq_error_iff {failure : Failure} :
    comment.suppression? = .error failure ↔ comment.Fails failure := by
  refine ⟨fun h => ?_, Fails.suppression?_eq⟩
  rcases comment.standsFor_or_fails with hid | ⟨entry, hentry⟩ | ⟨failure', hfails⟩
  · rw [suppression?, if_pos hid] at h
    cases h
  · cases h.symm.trans hentry.suppression?_eq
  · cases h.symm.trans hfails.suppression?_eq
    exact hfails

/-- A comment can be read unless it names an id, a file and a line, and this line is no integer. -/
theorem readable_iff (comment : SuppressionComment) :
    (∃ entry?, comment.suppression? = .ok entry?) ↔
      (comment.id ≠ "" → comment.file ≠ "" → comment.line.isTruthy = true →
        ∃ n, lineNumber comment.line = .ok n) := by
  have hfails : (∃ entry?, comment.suppression? = .ok entry?) ↔
      ∀ failure, ¬ comment.Fails failure := by
    simp only [← suppression?_eq_error_iff]
    cases comment.suppression? <;> simp
  rw [hfails]
  constructor
  · intro h hid hfile hgiven
    cases hline : lineNumber comment.line with
    | ok n => exact ⟨n, rfl⟩
    | error failure => exact absurd ⟨hid, hfile, hgiven, hline⟩ (h failure)
  · intro h failure hfails
    obtain ⟨n, hn⟩ := h hfails.id hfails.file hfails.given
    cases hn.symm.trans hfails.line

end SuppressionComment

/-- Why a comment cannot be read. -/
def SuppressionComment.fault? (comment : SuppressionComment) : Option Failure :=
  match comment.suppression? with
  | .ok _ => none
  | .error failure => some failure

theorem SuppressionComment.fault?_eq_some_iff {comment : SuppressionComment} {failure : Failure} :
    comment.fault? = some failure ↔ comment.Fails failure := by
  rw [← suppression?_eq_error_iff, fault?]
  cases comment.suppression? <;> simp

theorem SuppressionComment.fault?_eq_none_iff {comment : SuppressionComment} :
    comment.fault? = none ↔ ∀ failure, ¬ comment.Fails failure := by
  simp only [← fault?_eq_some_iff, Option.eq_none_iff_forall_ne_some, ne_eq]

/-- Why the comments of a configuration cannot be loaded: the fault of the first that has one. -/
def Configuration.fault? (c : Configuration) : Option Failure :=
  c.suppressions.findSome? (·.fault?)

theorem Configuration.fault?_eq_none_iff (c : Configuration) : c.fault? = none ↔ c.Readable := by
  rw [fault?, List.findSome?_eq_none_iff]
  refine forall₂_congr fun comment _ => ?_
  rw [SuppressionComment.fault?]
  cases comment.suppression? with
  | ok entry? => simp
  | error failure => simp

/-- Loading stops at the first fault, in whatever state. -/
theorem Suppressions.load_snd (s : Suppressions) (c : Configuration) :
    (s.load c.suppressions).2 = c.fault? := by
  rw [Configuration.fault?]
  induction c.suppressions generalizing s with
  | nil => rfl
  | cons comment comments ih =>
    rw [load, List.findSome?_cons, SuppressionComment.fault?]
    cases comment.suppression? with
    | error failure => rfl
    | ok entry? =>
      cases entry? with
      | none => exact ih s
      | some entry => exact ih (s.add entry)

/-- The comments of a configuration are readable iff loading them stops nowhere, in whatever
state. -/
theorem Configuration.readable_iff (c : Configuration) (s : Suppressions) :
    c.Readable ↔ (s.load c.suppressions).2 = none := by
  rw [s.load_snd, c.fault?_eq_none_iff]

end GrowthAudit
