import GrowthAudit.Proofs.Run.Registration
import Mathlib.Data.List.Induction
import Mathlib.Data.List.Sort
import Mathlib.Data.String.Basic

/-!
# The history of a registry

A registry keeps two things apart: the checkers under their names, and the names that are switched
off.  Names may be switched before anything is registered under them, and be registered again later.
What a registry answers is a matter of its history: of a name, the last checker that was registered
under it counts, and the last time it was switched; the order is that of the first registrations.

* `RegistryCall`, `Registry.perform`, `Registry.after`: what a registry is told, and what one call
  and a history make of it.
* `RegistryCall.Latest`: the last call of a history that has a property.
* `Registry.Reflects`: what the two parts of a registry have to do with a history.
* `Registry.Reflects.perform`, `Registry.reflects_after`: one more call on both sides, and so every
  history, by induction on its calls from the last one.
* `Registry.made_iff`: the registries that come about are those that have a history.
* `Registry.after_reflectsHistory`: **a registry answers what its history says.**
-/

namespace GrowthAudit

/-! ### Calls -/

/-- What a registry is told: to take in a checker, and to switch a name off or on. -/
inductive RegistryCall where
  | register (checker : Checker)
  | disable (name : String)
  | enable (name : String)

namespace RegistryCall

/-- The call registers a checker under the name. -/
def Registers (name : String) : RegistryCall → Prop
  | register checker => checker.name = name
  | disable _ | enable _ => False

/-- The call switches the name off or on. -/
def Switches (name : String) : RegistryCall → Prop
  | register _ => False
  | disable other | enable other => other = name

/-- The last call of a history that has a property. -/
def Latest (P : RegistryCall → Prop) (calls : List RegistryCall) (call : RegistryCall) : Prop :=
  ∃ front back, calls = front ++ call :: back ∧ P call ∧ ∀ c ∈ back, ¬ P c

/-- Some checker has been registered under the name. -/
def Registered (calls : List RegistryCall) (name : String) : Prop :=
  ∃ call ∈ calls, call.Registers name

/-- The name has been switched, and the last time it was switched off. -/
def SwitchedOff (calls : List RegistryCall) (name : String) : Prop :=
  Latest (Switches name) calls (.disable name)

/-- The first name has been registered at a time at which the second one had not. -/
def RegisteredBefore (calls : List RegistryCall) (name name' : String) : Prop :=
  ∃ front, front <+: calls ∧ Registered front name ∧ ¬ Registered front name'

variable {P : RegistryCall → Prop} {calls : List RegistryCall} {call : RegistryCall}
  {name name' : String}

theorem not_latest_nil : ¬ Latest P [] call := by
  rintro ⟨front, back, hsplit, -⟩
  exact absurd hsplit (by simp)

/-- A call at the end is the last one with each property that it has. -/
theorem latest_concat_of_pos {c : RegistryCall} (h : P call) :
    Latest P (calls ++ [call]) c ↔ c = call := by
  constructor
  · rintro ⟨front, back, hsplit, -, hback⟩
    rcases List.eq_nil_or_concat' back with rfl | ⟨back, last, rfl⟩
    · exact (List.append_singleton_inj.mp hsplit).2.symm
    · rw [← List.cons_append, ← List.append_assoc] at hsplit
      obtain ⟨-, rfl⟩ := List.append_singleton_inj.mp hsplit
      exact absurd h (hback call (by simp))
  · rintro rfl
    exact ⟨calls, [], rfl, h, List.forall_mem_nil _⟩

/-- A call at the end does not matter for a property that it does not have. -/
theorem latest_concat_of_neg {c : RegistryCall} (h : ¬ P call) :
    Latest P (calls ++ [call]) c ↔ Latest P calls c := by
  constructor
  · rintro ⟨front, back, hsplit, hc, hback⟩
    rcases List.eq_nil_or_concat' back with rfl | ⟨back, last, rfl⟩
    · obtain ⟨-, rfl⟩ := List.append_singleton_inj.mp hsplit
      exact absurd hc h
    · rw [← List.cons_append, ← List.append_assoc] at hsplit
      obtain ⟨rfl, -⟩ := List.append_singleton_inj.mp hsplit
      exact ⟨front, back, rfl, hc, fun c hc => hback c (List.mem_append_left _ hc)⟩
  · rintro ⟨front, back, rfl, hc, hback⟩
    refine ⟨front, back ++ [call], by simp, hc, ?_⟩
    simpa [or_imp, forall_and] using ⟨hback, h⟩

theorem registered_concat_iff :
    Registered (calls ++ [call]) name ↔ Registered calls name ∨ call.Registers name := by
  simp only [Registered, List.mem_append, List.mem_singleton, or_and_right, exists_or,
    exists_eq_left]

theorem RegisteredBefore.append (h : RegisteredBefore calls name name')
    (more : List RegistryCall) : RegisteredBefore (calls ++ more) name name' := by
  obtain ⟨front, hfront, hname, hname'⟩ := h
  exact ⟨front, hfront.trans (List.prefix_append _ _), hname, hname'⟩

end RegistryCall

namespace Registry

open RegistryCall

/-! ### Histories -/

/-- What a registry becomes by a call. -/
def perform (registry : Registry) : RegistryCall → Registry
  | .register checker => registry.register checker
  | .disable name => registry.disable name
  | .enable name => registry.enable name

/-- The registry after a history of calls, the first one first. -/
def after (registry : Registry) (calls : List RegistryCall) : Registry :=
  calls.foldl perform registry

variable {registry : Registry} {calls : List RegistryCall}

theorem after_concat (calls : List RegistryCall) (call : RegistryCall) :
    registry.after (calls ++ [call]) = (registry.after calls).perform call :=
  List.foldl_concat ..

theorem Made.perform (h : registry.Made) (call : RegistryCall) : (registry.perform call).Made := by
  cases call with
  | register checker => exact h.register checker
  | disable name => exact h.disable name
  | enable name => exact h.enable name

theorem exists_after_perform (h : ∃ calls, registry = after {} calls) (call : RegistryCall) :
    ∃ calls, registry.perform call = after {} calls := by
  obtain ⟨calls, rfl⟩ := h
  exact ⟨_, (after_concat calls call).symm⟩

/-- The registries that come about are those at the end of some history. -/
theorem made_iff : registry.Made ↔ ∃ calls, registry = after {} calls := by
  constructor
  · intro h
    induction h with
    | empty => exact ⟨[], rfl⟩
    | register checker _ ih => exact exists_after_perform ih (.register checker)
    | disable name _ ih => exact exists_after_perform ih (.disable name)
    | enable name _ ih => exact exists_after_perform ih (.enable name)
  · rintro ⟨calls, rfl⟩
    induction calls using List.reverseRecOn with
    | nil => exact .empty
    | append_singleton calls call ih =>
      rw [after_concat]
      exact ih.perform call

/-! ### What one call does -/

/-- A call that registers nothing under a name leaves the checker of the name alone. -/
theorem get?_perform_of_not_registers {call : RegistryCall} {name : String}
    (h : ¬ call.Registers name) : (registry.perform call).get? name = registry.get? name := by
  cases call with
  | register checker => rw [perform, get?_register, if_neg (Ne.symm h)]
  | disable other => rfl
  | enable other => rfl

/-- A call that does not switch a name leaves it switched as it is. -/
theorem mem_disabled_perform_of_not_switches {call : RegistryCall} {name : String}
    (h : ¬ call.Switches name) :
    name ∈ (registry.perform call).disabled ↔ name ∈ registry.disabled := by
  cases call with
  | register checker => rfl
  | disable other =>
    have hname : name ≠ other := Ne.symm h
    rw [perform, mem_disabled_disable, or_iff_right hname]
  | enable other =>
    have hname : name ≠ other := Ne.symm h
    rw [perform, mem_disabled_enable, and_iff_left hname]

theorem mem_keys_perform_iff (call : RegistryCall) (name : String) :
    name ∈ (registry.perform call).checkers.map Prod.fst ↔
      name ∈ registry.checkers.map Prod.fst ∨ call.Registers name := by
  cases call with
  | register checker =>
    rw [perform, register, mem_keys_setEntry, or_comm, Registers, eq_comm]
  | disable other => exact (or_iff_left not_false).symm
  | enable other => exact (or_iff_left not_false).symm

/-- A name that is new comes last. -/
theorem keys_perform (call : RegistryCall) :
    (registry.perform call).checkers.map Prod.fst = registry.checkers.map Prod.fst ∨
      ∃ name, name ∉ registry.checkers.map Prod.fst ∧
        (registry.perform call).checkers.map Prod.fst =
          registry.checkers.map Prod.fst ++ [name] := by
  cases call with
  | register checker =>
    rw [perform, register, keys_setEntry]
    split
    next h => exact .inl rfl
    next h => exact .inr ⟨checker.name, h, rfl⟩
  | disable other => exact .inl rfl
  | enable other => exact .inl rfl

/-! ### What a history comes to -/

/-- A registry holds what a history says: under each name the last checker that was registered under
it, in the order of the first registrations; and apart from these the names that were switched off
when they were switched last. -/
structure Reflects (registry : Registry) (calls : List RegistryCall) : Prop where
  get?_eq_some_iff : ∀ name checker,
    registry.get? name = some checker ↔ Latest (Registers name) calls (.register checker)
  mem_keys_iff : ∀ name, name ∈ registry.checkers.map Prod.fst ↔ Registered calls name
  keys_ordered : (registry.checkers.map Prod.fst).Pairwise (RegisteredBefore calls)
  mem_disabled_iff : ∀ name, name ∈ registry.disabled ↔ SwitchedOff calls name

theorem reflects_empty : Reflects {} [] where
  get?_eq_some_iff _ _ := iff_of_false nofun not_latest_nil
  mem_keys_iff _ := by simp [Registered]
  keys_ordered := List.Pairwise.nil
  mem_disabled_iff _ := iff_of_false List.not_mem_nil not_latest_nil

/-- **One call**, on both sides. -/
theorem Reflects.perform (h : registry.Reflects calls) (call : RegistryCall) :
    (registry.perform call).Reflects (calls ++ [call]) where
  get?_eq_some_iff name checker := by
    by_cases hcall : call.Registers name
    · rw [latest_concat_of_pos hcall]
      cases call with
      | register other =>
        rw [Registry.perform, get?_register, if_pos hcall.symm]
        simp [eq_comm]
      | disable other => exact hcall.elim
      | enable other => exact hcall.elim
    · rw [latest_concat_of_neg hcall, get?_perform_of_not_registers hcall, h.get?_eq_some_iff]
  mem_keys_iff name := by
    rw [mem_keys_perform_iff, registered_concat_iff, h.mem_keys_iff]
  keys_ordered := by
    have hkeys := h.keys_ordered.imp fun hbefore => hbefore.append [call]
    rcases keys_perform call with hsame | ⟨name, hnew, hadded⟩
    · rwa [hsame]
    · -- what is registered already comes before a name that is new
      rw [hadded, List.pairwise_append]
      refine ⟨hkeys, List.pairwise_singleton _ _, fun other hother name' hname' => ?_⟩
      rw [List.mem_singleton.mp hname']
      rw [h.mem_keys_iff] at hother hnew
      exact ⟨calls, List.prefix_append _ _, hother, hnew⟩
  mem_disabled_iff name := by
    by_cases hcall : call.Switches name
    · rw [SwitchedOff, latest_concat_of_pos hcall]
      cases call with
      | register checker => exact hcall.elim
      | disable other => simp [Registry.perform, show other = name from hcall]
      | enable other => simp [Registry.perform, show other = name from hcall]
    · rw [SwitchedOff, latest_concat_of_neg hcall, mem_disabled_perform_of_not_switches hcall,
        h.mem_disabled_iff, SwitchedOff]

/-- **A history**, by induction on its calls from the last one. -/
theorem reflects_after (calls : List RegistryCall) : (after {} calls).Reflects calls := by
  induction calls using List.reverseRecOn with
  | nil => exact reflects_empty
  | append_singleton calls call ih =>
    rw [after_concat]
    exact ih.perform call

/-! ### What a registry answers -/

/-- The enabled checkers are those that are found under their names and not switched off. -/
theorem Keyed.mem_enabled_iff (h : registry.Keyed) {checker : Checker} :
    checker ∈ registry.enabled ↔
      registry.get? checker.name = some checker ∧ checker.name ∉ registry.disabled := by
  rw [get?, lookup_eq_some_iff_mem h.nodup_keys, enabled, List.mem_map]
  constructor
  · rintro ⟨⟨name, _⟩, he, rfl⟩
    obtain ⟨hmem, hon⟩ := List.mem_filter.mp he
    rw [h.name_eq _ _ hmem]
    exact ⟨hmem, by simpa using hon⟩
  · rintro ⟨hmem, hon⟩
    exact ⟨_, List.mem_filter.mpr ⟨hmem, by simpa using hon⟩, rfl⟩

/-- **A registry answers what its history says.**  The enabled checkers are those of the names that
were registered and not switched off when they were switched last; each name is there once, in the
order of the first registrations, with the checker that was registered last.  This checker is also
found where its name is switched off.  All names that were registered are listed, sorted and each
once. -/
theorem after_reflectsHistory (calls : List RegistryCall) :
    (∀ name, name ∈ (after {} calls).enabled.map (·.name) ↔
        Registered calls name ∧ ¬ SwitchedOff calls name) ∧
      ((after {} calls).enabled.map (·.name)).Nodup ∧
      ((after {} calls).enabled.map (·.name)).Pairwise (RegisteredBefore calls) ∧
      (∀ checker, checker ∈ (after {} calls).enabled ↔
        Latest (Registers checker.name) calls (.register checker) ∧
          ¬ SwitchedOff calls checker.name) ∧
      (∀ name checker, (after {} calls).get? name = some checker ↔
        Latest (Registers name) calls (.register checker)) ∧
      (∀ name, (after {} calls).get? name = none ↔ ¬ Registered calls name) ∧
      (∀ name, name ∈ (after {} calls).names ↔ Registered calls name) ∧
      (after {} calls).names.Nodup ∧
      (after {} calls).names.Pairwise (· ≤ ·) := by
  have hkeyed : (after {} calls).Keyed := (made_iff.mpr ⟨calls, rfl⟩).keyed
  have h := reflects_after calls
  have hnames := hkeyed.map_name_enabled
  refine ⟨?_, ?_, ?_, ?_, h.get?_eq_some_iff, ?_, ?_, ?_, ?_⟩
  · intro name
    rw [hnames, List.mem_filter, h.mem_keys_iff, ← h.mem_disabled_iff]
    simp
  · exact hkeyed.nodup_names_enabled
  · exact hnames ▸ h.keys_ordered.filter _
  · intro checker
    rw [hkeyed.mem_enabled_iff, h.get?_eq_some_iff, h.mem_disabled_iff]
  · intro name
    rw [get?, lookup_eq_none_iff_notMem, h.mem_keys_iff]
  · intro name
    rw [names, List.mem_mergeSort, h.mem_keys_iff]
  · exact List.nodup_mergeSort.mpr hkeyed.nodup_keys
  · exact List.pairwise_mergeSort' _ _

/-- A name is switched off, registered, registered again behind another one, and switched on. -/
def switchedSample : List RegistryCall :=
  [.disable "b", .register { name := "b", description := "old" : Script }.checker,
    .register { name := "a" : Script }.checker,
    .register { name := "b", description := "new" : Script }.checker, .enable "b"]

example : (after {} switchedSample).enabled.map (fun c => (c.name, c.description)) =
    [("b", "new"), ("a", "")] := rfl

end Registry

end GrowthAudit
