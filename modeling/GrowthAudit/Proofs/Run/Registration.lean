import GrowthAudit.Proofs.Run.Contributions
import GrowthAudit.Proofs.Run.Statistics

/-!
# Registries and selections

A registry comes about by registering checkers and by switching names off and on.  So every checker
stands under its own name, and there only.  A run that takes all enabled checkers has each of them
once; a run that is given names has a checker as often as its name is given.

* `Registry.Made`: the registries that come about.
* `Registry.Keyed`, `Registry.Made.keyed`: checkers stand under their own names, each once.
* `Runner.eq_of_mem_select`: selected checkers of one name are the same.
* `Runner.two_le_count_select_iff`: a checker is selected twice iff its name is given twice.
-/

namespace GrowthAudit

/-- The registries that come about by registering checkers and by switching names off and on. -/
inductive Registry.Made : Registry → Prop
  | empty : Made {}
  | register {registry : Registry} (checker : Checker) : Made registry →
      Made (registry.register checker)
  | disable {registry : Registry} (name : String) : Made registry → Made (registry.disable name)
  | enable {registry : Registry} (name : String) : Made registry → Made (registry.enable name)

/-- Every checker stands under its own name, and no name is there twice. -/
structure Registry.Keyed (registry : Registry) : Prop where
  name_eq : ∀ name checker, (name, checker) ∈ registry.checkers → checker.name = name
  nodup_keys : (registry.checkers.map Prod.fst).Nodup

theorem Registry.Made.keyed {registry : Registry} (h : registry.Made) : registry.Keyed := by
  induction h with
  | empty => exact ⟨fun _ _ he => absurd he List.not_mem_nil, List.nodup_nil⟩
  | register checker _ ih =>
    refine ⟨?_, nodup_keys_setEntry _ _ ih.nodup_keys⟩
    intro name checker' he
    rcases mem_setEntry he with heq | he
    · cases heq
      rfl
    · exact ih.name_eq name checker' he
  | disable name _ ih => exact ⟨ih.name_eq, ih.nodup_keys⟩
  | enable name _ ih => exact ⟨ih.name_eq, ih.nodup_keys⟩

/-- The names of the enabled checkers are those names that are not switched off. -/
theorem Registry.Keyed.map_name_enabled {registry : Registry} (h : registry.Keyed) :
    registry.enabled.map (·.name) =
      (registry.checkers.map Prod.fst).filter (!registry.disabled.contains ·) := by
  rw [Registry.enabled, List.map_map, List.filter_map]
  exact List.map_congr_left fun e he => h.name_eq _ _ (List.mem_of_mem_filter he)

/-- All enabled checkers have different names. -/
theorem Registry.Keyed.nodup_names_enabled {registry : Registry} (h : registry.Keyed) :
    (registry.enabled.map (·.name)).Nodup :=
  h.map_name_enabled ▸ h.nodup_keys.filter _

namespace Runner

variable {r : Runner} {checkers : Option (List String)}

/-- Selected checkers of one name are the same. -/
theorem eq_of_mem_select (h : r.registry.Keyed) {a b : Checker} (ha : a ∈ (r.select checkers).1)
    (hb : b ∈ (r.select checkers).1) (hname : a.name = b.name) : a = b := by
  obtain ⟨key, hkey⟩ := exists_mem_of_mem_select ha
  obtain ⟨key', hkey'⟩ := exists_mem_of_mem_select hb
  have hsame : key = key' := by
    rw [← h.name_eq _ _ hkey, ← h.name_eq _ _ hkey', hname]
  exact congrArg Prod.snd (List.inj_on_of_nodup_map h.nodup_keys hkey hkey' hsame)

/-- The checkers with given names are those of the names that are registered. -/
theorem map_name_byNames (h : r.registry.Keyed) (names : List String) :
    (r.byNames names).1.map (·.name) = names.filter fun name => (r.registry.get? name).isSome := by
  induction names with
  | nil => rfl
  | cons name names ih =>
    rw [byNames, List.filter_cons]
    cases hname : r.registry.get? name with
    | none => exact ih
    | some checker =>
      rw [Option.isSome_some, if_pos rfl, List.map_cons, ih, h.name_eq _ _ (mem_of_lookup hname)]

/-- **A checker is selected twice iff its name is given twice.** -/
theorem two_le_count_select_iff (h : r.registry.Keyed) {name : String}
    (hname : name ∈ (r.select checkers).1.map (·.name)) :
    2 ≤ ((r.select checkers).1.map (·.name)).count name ↔
      ∃ names, checkers = some names ∧ 2 ≤ names.count name := by
  cases checkers with
  | none =>
    have hle := List.nodup_iff_count_le_one.mp h.nodup_names_enabled name
    constructor
    · intro htwo
      exact absurd hle (Nat.not_le_of_lt htwo)
    · rintro ⟨names, hnone, -⟩
      cases hnone
  | some names =>
    have hselected : ((r.select (some names)).1.map (·.name)) =
        names.filter fun name => (r.registry.get? name).isSome := map_name_byNames h names
    rw [hselected] at hname ⊢
    have hcount := List.count_filter (l := names) (p := fun name => (r.registry.get? name).isSome)
      (List.mem_filter.mp hname).2
    rw [hcount]
    simp

end Runner

end GrowthAudit
