import GrowthAudit.Checker.Growth

/-!
# Registries

The checkers that are available, in the order in which their names were first registered.  A name
can be switched off and on again whether or not it is registered, and registering it once more
replaces the checker in its place.
-/

namespace GrowthAudit

structure Registry where
  checkers : List (String × Checker) := []
  disabled : List String := []

namespace Registry

def register (r : Registry) (c : Checker) : Registry :=
  { r with checkers := setEntry c.name c r.checkers }

def disable (r : Registry) (name : String) : Registry :=
  { r with disabled := if r.disabled.contains name then r.disabled else name :: r.disabled }

def enable (r : Registry) (name : String) : Registry :=
  { r with disabled := r.disabled.filter (· ≠ name) }

/-- The checkers that are not switched off, in registration order. -/
def enabled (r : Registry) : List Checker :=
  (r.checkers.filter fun e => !r.disabled.contains e.1).map (·.2)

/-- The checker of a name, also if it is switched off. -/
def get? (r : Registry) (name : String) : Option Checker := r.checkers.lookup name

/-- All names, sorted. -/
def names (r : Registry) : List String := (r.checkers.map (·.1)).mergeSort

/-- The registry that holds the growth checker alone. -/
def standard : Registry := register {} growthChecker

theorem get?_register (r : Registry) (c : Checker) (name : String) :
    (r.register c).get? name = if name = c.name then some c else r.get? name :=
  lookup_setEntry c.name name c r.checkers

@[simp] theorem mem_disabled_disable (r : Registry) (other name : String) :
    name ∈ (r.disable other).disabled ↔ name = other ∨ name ∈ r.disabled := by
  rw [disable]
  split
  next h =>
    have hother : other ∈ r.disabled := List.contains_iff_mem.mp h
    exact ⟨Or.inr, fun h => h.elim (· ▸ hother) id⟩
  next => exact List.mem_cons

@[simp] theorem mem_disabled_enable (r : Registry) (other name : String) :
    name ∈ (r.enable other).disabled ↔ name ∈ r.disabled ∧ name ≠ other := by
  simp [enable]

end Registry

end GrowthAudit
