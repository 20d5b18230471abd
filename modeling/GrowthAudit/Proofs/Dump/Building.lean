import GrowthAudit.Dump.RecordTypes
import Mathlib.Data.List.Forall2
import Mathlib.Data.List.Nodup

/-!
# How record types are built

`Configuration.recordWithin` goes down into the definitions of bases and members, hands what it
remembers from one to the next, and stops at what it remembers already, at what it is building, and
at what has no body.  This file says once what such a run can do.

* `Memo.Thread`: a row of runs, each of which goes on with what the one before remembers.
* `Configuration.RunRule P`: `P` holds of a run for each of the four ways in which it can end, given
  that it holds of the runs below.
* `Configuration.recordWithin_run`: then it holds of every run with room to go on.  The path holds
  different keys, each of some scope, so a run that starts with one level more than there are scopes
  has room all the way down: `Configuration.recordType_run`.

Whatever is said of runs later is an instance of `RunRule`.
-/

namespace GrowthAudit

/-! ### Rows of runs -/

/-- A row of runs, one for each element, each of which starts with what the one before leaves. -/
inductive Memo.Thread (step : α → Memo → β → Memo → Prop) : List α → Memo → List β → Memo → Prop
  | nil {memo : Memo} : Thread step [] memo [] memo
  | cons {a : α} {b : β} {as : List α} {bs : List β} {memo memo' memo'' : Memo} :
      step a memo b memo' → Thread step as memo' bs memo'' →
      Thread step (a :: as) memo (b :: bs) memo''

namespace Memo.Thread

variable {step : α → Memo → β → Memo → Prop}

theorem of_traverse {f : α → Memo → β × Memo}
    (h : ∀ a memo, step a memo (f a memo).1 (f a memo).2) (as : List α) (memo : Memo) :
    Thread step as memo (Memo.traverse f as memo).1 (Memo.traverse f as memo).2 := by
  induction as generalizing memo with
  | nil => exact .nil
  | cons a as ih => exact .cons (h a memo) (ih _)

theorem append {as as' : List α} {bs bs' : List β} {memo memo' memo'' : Memo}
    (h : Thread step as memo bs memo') (h' : Thread step as' memo' bs' memo'') :
    Thread step (as ++ as') memo (bs ++ bs') memo'' := by
  induction h with
  | nil => exact h'
  | cons hstep _ ih => exact .cons hstep (ih h')

theorem map {step' : γ → Memo → δ → Memo → Prop} {f : α → γ} {g : β → δ} {as : List α}
    {bs : List β} {memo memo' : Memo} (h : ∀ a m b m', step a m b m' → step' (f a) m (g b) m')
    (hthread : Thread step as memo bs memo') :
    Thread step' (as.map f) memo (bs.map g) memo' := by
  induction hthread with
  | nil => exact .nil
  | cons hstep _ ih => exact .cons (h _ _ _ _ hstep) ih

/-- What each run keeps, the row keeps. -/
theorem invariant {I : Memo → Prop} {Q : α → β → Prop} {as : List α} {bs : List β}
    {memo memo' : Memo} (hthread : Thread step as memo bs memo')
    (h : ∀ a ∈ as, ∀ m b m', step a m b m' → I m → I m' ∧ Q a b) (hinv : I memo) :
    I memo' ∧ List.Forall₂ Q as bs := by
  induction hthread with
  | nil => exact ⟨hinv, .nil⟩
  | cons hstep _ ih =>
    obtain ⟨hinv', hq⟩ := h _ List.mem_cons_self _ _ _ hstep hinv
    obtain ⟨hinv'', hqs⟩ := ih (fun a ha => h a (List.mem_cons_of_mem _ ha)) hinv'
    exact ⟨hinv'', .cons hq hqs⟩

/-- What each run achieves and every later one keeps, the row achieves for all elements. -/
theorem achieves {G : α → Memo → Prop} {as : List α} {bs : List β} {memo memo' : Memo}
    (hthread : Thread step as memo bs memo')
    (hdo : ∀ a m b m', step a m b m' → G a m') (hkeep : ∀ x a m b m', step a m b m' → G x m → G x m') :
    ∀ a ∈ as, G a memo' := by
  have hkeeps : ∀ {as : List α} {bs : List β} {m m' : Memo}, Thread step as m bs m' →
      ∀ x, G x m → G x m' := by
    intro as bs m m' hthread x hx
    induction hthread with
    | nil => exact hx
    | cons hstep _ ih => exact ih (hkeep x _ _ _ _ hstep hx)
  induction hthread with
  | nil => exact fun a ha => nomatch ha
  | cons hstep hrest ih =>
    intro a ha
    rcases List.mem_cons.mp ha with rfl | ha
    · exact hkeeps hrest a (hdo a _ _ _ hstep)
    · exact ih a ha

end Memo.Thread

/-! ### One run -/

/-- The run for what a resolution means: a known type costs nothing. -/
inductive Resolution.Run (P : Nat → Memo → CppType → Memo → Prop) :
    Resolution → Memo → CppType → Memo → Prop
  | known {t : CppType} {memo : Memo} : Run P (.known t) memo t memo
  | record {i : Nat} {t : CppType} {memo memo' : Memo} : P i memo t memo' →
      Run P (.record i) memo t memo'

/-- The run for a base gives the base a type. -/
inductive Base.Run (P : Nat → Memo → CppType → Memo → Prop) :
    Base Resolution → Memo → Base CppType → Memo → Prop
  | mk {b : Base Resolution} {t : CppType} {memo memo' : Memo} :
      Resolution.Run P b.type memo t memo' → Run P b memo (b.withType t) memo'

/-- The run for a member gives the member a type. -/
inductive Field.Run (P : Nat → Memo → CppType → Memo → Prop) :
    Field Resolution → Memo → Field CppType → Memo → Prop
  | mk {f : Field Resolution} {t : CppType} {memo memo' : Memo} :
      Resolution.Run P f.type memo t memo' → Run P f memo (f.withType t) memo'

/-- The runs for bases and members, as one row of runs for what they resolve to. -/
theorem Memo.Thread.parts {P : Nat → Memo → CppType → Memo → Prop} {as : List (Base Resolution)}
    {bs : List (Base CppType)} {fs : List (Field Resolution)} {gs : List (Field CppType)}
    {memo memo' memo'' : Memo} (hbases : Thread (Base.Run P) as memo bs memo')
    (hfields : Thread (Field.Run P) fs memo' gs memo'') :
    Thread (Resolution.Run P) (as.map (·.type) ++ fs.map (·.type)) memo
      (bs.map (·.type) ++ gs.map (·.type)) memo'' := by
  refine .append (.map ?_ hbases) (.map ?_ hfields)
  · rintro _ _ _ _ ⟨h⟩
    exact h
  · rintro _ _ _ _ ⟨h⟩
    exact h

namespace Configuration

variable (c : Configuration)

/-- What `P` has to say of the four ways in which a run for a record can end: the record is
remembered, it is being built, it has no body, or it is built from the runs for its bases and
members. -/
structure RunRule (P : List ScopeKey → Nat → Memo → CppType → Memo → Prop) : Prop where
  remembered : ∀ path i memo t, memo.lookup (c.keyOf i) = some t → P path i memo t memo
  met : ∀ path i memo, memo.lookup (c.keyOf i) = none → c.keyOf i ∈ path →
    P path i memo (.incomplete (c.qualifiedName i)) memo
  bodiless : ∀ path i memo, memo.lookup (c.keyOf i) = none → c.outline? i = none →
    P path i memo (.incomplete (c.qualifiedName i)) memo
  built : ∀ path i memo o bases memo' fields memo'', memo.lookup (c.keyOf i) = none →
    c.keyOf i ∉ path → c.outline? i = some o →
    Memo.Thread (Base.Run (P (c.keyOf i :: path))) o.bases memo bases memo' →
    Memo.Thread (Field.Run (P (c.keyOf i :: path))) o.fields memo' fields memo'' →
    P path i memo (.complete (.ofOutline o bases fields))
      ((c.keyOf i, .complete (.ofOutline o bases fields)) :: memo'')

/-- The levels that are left exceed the number of scopes that are not on the path. -/
structure Room (levels : Nat) (path : List ScopeKey) : Prop where
  nodup : path.Nodup
  keys : path ⊆ (List.range c.scopes.length).map c.keyOf
  levels : c.scopes.length < levels + path.length

variable {c}

theorem Room.pos {path : List ScopeKey} (h : c.Room 0 path) : False := by
  have hle := h.nodup.length_le_of_subset h.keys
  rw [List.length_map, List.length_range] at hle
  have hlt := h.levels
  omega

theorem lt_length_of_outline? {i : Nat} {o : Record Resolution} (h : c.outline? i = some o) :
    i < c.scopes.length := by
  obtain ⟨s, _, hs, _⟩ := outline?_eq_some_iff.mp h
  exact (List.getElem?_eq_some_iff.mp hs).1

/-- Keys that are different as far as there are scopes are different everywhere. -/
theorem keyOf_injective_of_nodup (h : ((List.range c.scopes.length).map c.keyOf).Nodup) :
    Function.Injective c.keyOf := by
  have hown : ∀ {i k : Nat}, c.keyOf i = .anonymous k → i = k := by
    intro i k hi
    rw [keyOf] at hi
    split at hi
    · split at hi
      · exact ScopeKey.anonymous.inj hi
      · cases hi
    · exact ScopeKey.anonymous.inj hi
  have hbeyond : ∀ {i : Nat}, ¬ i < c.scopes.length → c.keyOf i = .anonymous i := by
    intro i hi
    rw [keyOf, scope?, List.getElem?_eq_none (Nat.le_of_not_lt hi)]
    rfl
  intro i j hij
  by_cases hi : i < c.scopes.length
  · by_cases hj : j < c.scopes.length
    · exact List.inj_on_of_nodup_map h (List.mem_range.mpr hi) (List.mem_range.mpr hj) hij
    · exact hown (hij.trans (hbeyond hj))
  · exact (hown (hij.symm.trans (hbeyond hi))).symm

/-- Where scopes have different keys, a new entry stands for its own scope only. -/
theorem lookup_keyOf_cons (hkeys : Function.Injective c.keyOf) (i j : Nat) (t : CppType)
    (memo : Memo) :
    ((c.keyOf i, t) :: memo).lookup (c.keyOf j) =
      if j = i then some t else memo.lookup (c.keyOf j) := by
  simp only [lookup_cons_eq_ite, hkeys.eq_iff]

theorem forall_lookup_keyOf_cons (hkeys : Function.Injective c.keyOf) {P : Nat → CppType → Prop}
    {memo : Memo} {i : Nat} {t : CppType} (h : ∀ j u, memo.lookup (c.keyOf j) = some u → P j u)
    (ht : P i t) : ∀ j u, ((c.keyOf i, t) :: memo).lookup (c.keyOf j) = some u → P j u := by
  intro j u hu
  rw [lookup_keyOf_cons hkeys] at hu
  split at hu
  next hj =>
    cases hu
    exact hj ▸ ht
  next => exact h j u hu

/-- What is being built below a record is the record itself, and what is being built around it. -/
theorem forall_keyOf_mem_cons (hkeys : Function.Injective c.keyOf) {P : Nat → Prop}
    {path : List ScopeKey} {i : Nat} (hi : P i) (h : ∀ p, c.keyOf p ∈ path → P p) :
    ∀ p, c.keyOf p ∈ c.keyOf i :: path → P p := by
  intro p hp
  rcases List.mem_cons.mp hp with hp | hp
  · exact hkeys hp ▸ hi
  · exact h p hp

theorem Room.step {levels i : Nat} {path : List ScopeKey} {o : Record Resolution}
    (h : c.Room (levels + 1) path) (hi : c.outline? i = some o) (hpath : c.keyOf i ∉ path) :
    c.Room levels (c.keyOf i :: path) where
  nodup := List.nodup_cons.mpr ⟨hpath, h.nodup⟩
  keys := by
    intro k hk
    rcases List.mem_cons.mp hk with rfl | hk
    · exact List.mem_map_of_mem (List.mem_range.mpr (lt_length_of_outline? hi))
    · exact h.keys hk
  levels := by
    have hlt := h.levels
    rw [List.length_cons]
    omega

/-- **What holds of a run for each way in which it can end holds of every run with room.** -/
theorem recordWithin_run {P : List ScopeKey → Nat → Memo → CppType → Memo → Prop}
    (hP : c.RunRule P) {levels : Nat} {path : List ScopeKey} (hroom : c.Room levels path) (i : Nat)
    (memo : Memo) :
    P path i memo (c.recordWithin levels path i memo).1 (c.recordWithin levels path i memo).2 := by
  induction levels generalizing path i memo with
  | zero => exact hroom.pos.elim
  | succ levels ih =>
    rw [recordWithin]
    cases hmemo : memo.lookup (c.keyOf i) with
    | some t => exact hP.remembered path i memo t hmemo
    | none =>
      by_cases hpath : c.keyOf i ∈ path
      · rw [if_pos (List.contains_iff_mem.mpr hpath)]
        exact hP.met path i memo hmemo hpath
      · rw [if_neg (fun h => hpath (List.contains_iff_mem.mp h))]
        cases ho : c.outline? i with
        | none => exact hP.bodiless path i memo hmemo ho
        | some o =>
          have hbelow := ih (hroom.step ho hpath)
          refine hP.built path i memo o _ _ _ _ hmemo hpath ho (.of_traverse ?_ _ _)
            (.of_traverse ?_ _ _)
          · rintro ⟨r, isVirtual, location⟩ m
            cases r with
            | known t => exact .mk .known
            | record j => exact .mk (.record (hbelow j m))
          · rintro ⟨name, r, isOwn, location, isConst⟩ m
            cases r with
            | known t => exact .mk .known
            | record j => exact .mk (.record (hbelow j m))

theorem recordType_run {P : List ScopeKey → Nat → Memo → CppType → Memo → Prop}
    (hP : c.RunRule P) (i : Nat) (memo : Memo) :
    P [] i memo (c.recordType i memo).1 (c.recordType i memo).2 :=
  recordWithin_run hP ⟨List.nodup_nil, List.nil_subset _, by simp⟩ i memo

theorem typeOf_run {P : List ScopeKey → Nat → Memo → CppType → Memo → Prop}
    (hP : c.RunRule P) (r : Resolution) (memo : Memo) :
    r.Run (P []) memo (c.typeOf r memo).1 (c.typeOf r memo).2 := by
  cases r with
  | known t => exact .known
  | record i => exact .record (recordType_run hP i memo)

end Configuration

end GrowthAudit
