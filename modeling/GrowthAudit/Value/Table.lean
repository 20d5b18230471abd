/-!
# Ordered tables

A table is a list of keys and what they stand for, in the order in which the keys were first
written. `List.lookup` reads it, and `setEntry` writes to it.

* `lookup_eq_some_iff_mem`: in a table that has no key twice, a key stands for what its entry holds.
* `lookup_setEntry`, `keys_setEntry`: what a table holds after an entry was set.
-/

namespace GrowthAudit

/-! ### Reading -/

theorem lookup_cons_eq_ite [DecidableEq κ] (k key : κ) (a : α) (entries : List (κ × α)) :
    ((key, a) :: entries).lookup k = if k = key then some a else entries.lookup k := by
  by_cases h : k = key
  · rw [List.lookup_cons, if_pos h, beq_iff_eq.2 h]
  · rw [List.lookup_cons, if_neg h, beq_eq_false_iff_ne.2 h]

/-- What holds of a new entry and of all that was there before holds of all that is there now. -/
theorem forall_lookup_cons [DecidableEq κ] {P : κ → α → Prop} {key : κ} {a : α}
    {entries : List (κ × α)} (h : ∀ k b, entries.lookup k = some b → P k b) (ha : P key a) :
    ∀ k b, ((key, a) :: entries).lookup k = some b → P k b := by
  intro k b hb
  rw [lookup_cons_eq_ite] at hb
  split at hb
  next hk =>
    cases hb
    exact hk ▸ ha
  next => exact h k b hb

theorem mem_of_lookup [BEq κ] [LawfulBEq κ] {key : κ} {a : α} {entries : List (κ × α)}
    (h : entries.lookup key = some a) : (key, a) ∈ entries := by
  obtain ⟨front, back, rfl, -⟩ := List.lookup_eq_some_iff.mp h
  exact List.mem_append_right _ List.mem_cons_self

/-- A key that is not there stands for nothing. -/
theorem lookup_eq_none_iff_notMem {key : String} {entries : List (String × α)} :
    entries.lookup key = none ↔ key ∉ entries.map Prod.fst := by
  rw [List.lookup_eq_none_iff, List.mem_map]
  constructor
  · rintro h ⟨e, he, hkey⟩
    exact bne_iff_ne.mp (h e he) hkey.symm
  · intro h e he
    exact bne_iff_ne.mpr fun hkey => h ⟨e, he, hkey.symm⟩

/-- Where no key is there twice, a key stands for what its entry holds. -/
theorem lookup_eq_some_iff_mem {key : String} {a : α} {entries : List (String × α)}
    (h : (entries.map Prod.fst).Nodup) : entries.lookup key = some a ↔ (key, a) ∈ entries := by
  refine ⟨mem_of_lookup, fun hmem => ?_⟩
  induction entries with
  | nil => cases hmem
  | cons e rest ih =>
    obtain ⟨hnew, hrest⟩ := List.nodup_cons.mp h
    rw [lookup_cons_eq_ite]
    rcases List.mem_cons.mp hmem with rfl | hmem
    · rw [if_pos rfl]
    · rw [if_neg, ih hrest hmem]
      rintro rfl
      exact hnew (List.mem_map.mpr ⟨_, hmem, rfl⟩)

/-! ### Writing -/

/-- Sets what a key of an ordered table stands for.  A key that is there keeps its place. -/
def setEntry (key : String) (a : α) : List (String × α) → List (String × α)
  | [] => [(key, a)]
  | (k, b) :: rest => if k = key then (k, a) :: rest else (k, b) :: setEntry key a rest

/-- A new key comes after the keys that are there. -/
theorem setEntry_of_notMem {key : String} {entries : List (String × α)}
    (h : key ∉ entries.map Prod.fst) (a : α) :
    setEntry key a entries = entries ++ [(key, a)] := by
  induction entries with
  | nil => rfl
  | cons e rest ih =>
    rw [List.map_cons, List.mem_cons, not_or] at h
    rw [setEntry, if_neg (Ne.symm h.1), ih h.2, List.cons_append]

theorem mem_setEntry {key : String} {a : α} {entries : List (String × α)} {e : String × α}
    (h : e ∈ setEntry key a entries) : e = (key, a) ∨ e ∈ entries := by
  fun_induction setEntry key a entries with
  | case1 => exact .inl (List.mem_singleton.mp h)
  | case2 b rest =>
    rcases List.mem_cons.mp h with rfl | h
    · exact .inl rfl
    · exact .inr (List.mem_cons_of_mem _ h)
  | case3 k b rest _ ih =>
    rcases List.mem_cons.mp h with rfl | h
    · exact .inr List.mem_cons_self
    · exact (ih h).imp_right (List.mem_cons_of_mem _)

theorem lookup_setEntry (key k : String) (a : α) (entries : List (String × α)) :
    (setEntry key a entries).lookup k = if k = key then some a else entries.lookup k := by
  induction entries with
  | nil => simp [setEntry, lookup_cons_eq_ite]
  | cons e rest ih =>
    obtain ⟨k', b⟩ := e
    by_cases hk : k' = key
    · subst hk
      by_cases h : k = k' <;> simp [setEntry, lookup_cons_eq_ite, h]
    · by_cases h : k = k'
      · subst h
        simp [setEntry, hk]
      · simp [setEntry, lookup_cons_eq_ite, hk, h, ih]

theorem keys_setEntry (key : String) (a : α) (entries : List (String × α)) :
    (setEntry key a entries).map Prod.fst =
      if key ∈ entries.map Prod.fst then entries.map Prod.fst
      else entries.map Prod.fst ++ [key] := by
  induction entries with
  | nil => rfl
  | cons e rest ih =>
    obtain ⟨k, b⟩ := e
    by_cases hk : k = key
    · simp [setEntry, hk]
    · have hkey : ¬ key = k := fun h => hk h.symm
      simp only [setEntry, if_neg hk, List.map_cons, ih, List.mem_cons, hkey, false_or]
      split <;> rfl

theorem mem_keys_setEntry (k key : String) (a : α) (entries : List (String × α)) :
    k ∈ (setEntry key a entries).map Prod.fst ↔ k = key ∨ k ∈ entries.map Prod.fst := by
  rw [keys_setEntry]
  split
  · next hkey =>
    constructor
    · exact .inr
    · rintro (rfl | hk)
      · exact hkey
      · exact hk
  · rw [List.mem_append, List.mem_singleton, or_comm]

theorem nodup_keys_setEntry {entries : List (String × α)} (key : String) (a : α)
    (h : (entries.map Prod.fst).Nodup) : ((setEntry key a entries).map Prod.fst).Nodup := by
  rw [keys_setEntry]
  split
  · exact h
  · next hkey =>
    refine List.nodup_append.mpr ⟨h, List.nodup_cons.mpr ⟨List.not_mem_nil, .nil⟩, ?_⟩
    rintro k hk _ hlast rfl
    exact hkey (List.mem_singleton.mp hlast ▸ hk)

end GrowthAudit
