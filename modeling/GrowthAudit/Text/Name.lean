/-!
# Qualified names

A qualified name is a row of components between double colons.  `components` cuts it at every double
colon, from the left; `lastComponent` is what follows the last one.  The two differ where three
colons stand in a row.

Names are cut on their characters; `unrooted` drops the colons in front and `untemplated` everything
from the first template argument list on.
-/

namespace GrowthAudit.Text

/-- The texts between double colons, from the left. -/
def splitColons : List Char → List (List Char)
  | [] => [[]]
  | ':' :: ':' :: rest => [] :: splitColons rest
  | c :: rest =>
    match splitColons rest with
    | [] => [[c]]
    | part :: parts => (c :: part) :: parts

/-- What follows the last double colon, `none` where there is no double colon. -/
def afterLastColons? : List Char → Option (List Char)
  | [] => none
  | c :: rest =>
    match afterLastColons? rest with
    | some after => some after
    | none => if c = ':' ∧ rest.head? = some ':' then some rest.tail else none

theorem eq_append_of_afterLastColons? {cs after : List Char}
    (h : afterLastColons? cs = some after) : ∃ front, cs = front ++ ':' :: ':' :: after := by
  induction cs with
  | nil => exact nomatch h
  | cons c rest ih =>
    rw [afterLastColons?] at h
    cases hr : afterLastColons? rest with
    | some after' =>
      rw [hr] at h
      cases h
      obtain ⟨front, rfl⟩ := ih hr
      exact ⟨c :: front, rfl⟩
    | none =>
      rw [hr] at h
      simp only [Option.ite_none_right_eq_some, Option.some.injEq] at h
      obtain ⟨⟨rfl, hd⟩, rfl⟩ := h
      cases rest with
      | nil => exact nomatch hd
      | cons d rest =>
        cases hd
        exact ⟨[], rfl⟩

def components (name : String) : List String := (splitColons name.toList).map String.ofList

def lastComponent (name : String) : String :=
  ((afterLastColons? name.toList).map String.ofList).getD name

/-- Drops the colons in front. -/
def unrooted (name : String) : String := String.ofList (name.toList.dropWhile (· = ':'))

/-- Drops everything from the first opening angle bracket on. -/
def untemplated (name : String) : String := String.ofList (name.toList.takeWhile (· ≠ '<'))

/-- Whether a name ends in another one, wherever in a component that begins. -/
def endsIn (name ending : String) : Bool := ending.toList.isSuffixOf name.toList

end GrowthAudit.Text
