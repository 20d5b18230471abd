import GrowthAudit.Proofs.CppType.Doubt
import GrowthAudit.Proofs.Dump.Hiding

/-!
# What hiding definitions can do to an answer

A record without a visible definition says nothing, but a record around it may say more than before:
it stops being trivially copyable.  `CppType.doubted` is the answer with nothing trivially copyable
on account of a definition inside, and it is just what hiding can do.

* `Configuration.softens_hide`: an answer with definitions hidden says no more against a record than
  the whole answer in doubt.
* `Configuration.degrades_or_exposed`: if a record degrades in doubt only, then there is one record
  inside such that every whole answer degrades once that one is hidden.

The second one is an induction on what an answer has inside
(`Configuration.contribution_or_exposed`). A record that is trivially copyable in spite of a
definition inside is exposed to hiding it; a constructor that throws because of a sub-object is
exposed wherever the sub-object is.
-/

namespace GrowthAudit

namespace Configuration

variable {c : Configuration}

/-! ### Hiding says no more than doubt -/

/-- An answer that is trivially copyable without a definition was known at once. -/
theorem Means.eq_known {cut : Nat → Prop} {r : Resolution} {t : CppType} (h : c.Means cut r t)
    (htriv : t.isTrivial = true) (hd : t.definition = none) : r = .known t := by
  cases h with
  | known _ => rfl
  | incomplete _ => cases htriv
  | complete _ _ _ => cases hd

/-- **Hiding definitions says no more against a type than doubt does.** -/
theorem softens_hide (hidden : List Nat) : Softens fun t u => ∃ r t₀, c.Whole r t₀ ∧
    t = t₀.doubted ∧ (c.hide hidden).Means (fun _ => True) r u := by
  rintro _ u ⟨r, t, ht, rfl, hu⟩
  cases hu with
  | known h => exact .silent (Or.inr h)
  | incomplete _ => exact .silent (Or.inr rfl)
  | @complete i o bases' fields' ho' hb' hf' =>
    have ho := outline?_of_hide ho'
    obtain ⟨bases, fields, rfl, hb, hf⟩ := ht.of_outline? ho
    have hparts := onType_of_common (Record.subObjects_ofOutline hb hf)
      (Record.subObjects_ofOutline hb' hf')
    refine .alike (CppType.isScalar_doubted _) (CppType.definition_doubted _) rfl ?_ ?_ ?_
    · intro htriv
      rw [Record.isTrivial_doubted, Bool.and_eq_true, Bool.not_eq_true'] at htriv
      obtain ⟨ho, hv, hs⟩ := (Record.isTrivial_ofOutline_iff hb).mp htriv.1
      refine (Record.isTrivial_ofOutline_iff hb').mpr ⟨ho, hv, ?_⟩
      -- a sub-object that is trivially copyable without a definition is not affected by hiding
      rintro ⟨u, isConst⟩ hu
      obtain ⟨t, ht, r, hrt, hru⟩ := exists_subObject_of_mem hparts hu
      have hd : t.definition = none := by
        have h := List.any_eq_false.mp htriv.2 _ ht
        rwa [Bool.not_eq_true, Option.isSome_eq_false_iff, Option.isNone_iff_eq_none] at h
      obtain rfl := hrt.eq_known (hs _ ht) hd
      cases hru
      exact hs _ ht
    · rw [Record.ctors_doubted]
      exact List.forall₂_same.mpr fun _ _ => Or.inl rfl
    · rw [Record.subObjects_doubted, List.forall₂_map_left_iff]
      refine hparts.imp ?_
      rintro _ _ ⟨r, hrt, hru⟩
      exact .mk ⟨r, _, hrt, rfl, hru⟩

/-! ### Doubt says no more than hiding can -/

/-- What a whole answer with a definition is made of. -/
theorem Whole.parts {i : Nat} {r : Record CppType} (h : c.Whole (.record i) (.complete r)) :
    ∃ o, c.outline? i = some o ∧ r.ctors = o.ctors ∧
      List.Forall₂ (OnType c.Whole) o.subObjects r.subObjects ∧
      (r.isTrivial = true → ∀ s ∈ r.subObjects, s.1.isTrivial = true) := by
  generalize ht : CppType.complete r = t at h
  cases h with
  | incomplete _ => cases (show some r = none from congrArg CppType.definition ht)
  | @complete _ o bases fields ho hb hf =>
    obtain rfl : r = .ofOutline o bases fields := Option.some.inj (congrArg CppType.definition ht)
    refine ⟨o, ho, rfl, Record.subObjects_ofOutline hb hf, fun htriv => ?_⟩
    exact ((Record.partsAreTrivial_iff o).mp (Bool.and_eq_true_iff.mp htriv).2).2

/-- Hiding some record inside a record makes `P` true of every whole answer for the outer one. -/
def Exposed (c : Configuration) (i : Nat) (P : Record CppType → Prop) : Prop :=
  ∃ j, c.Holds i j ∧ c.kindOf j = .record ∧
    ∀ r, (c.hide [j]).Whole (.record i) (.complete r) → P r

/-- What a part of this type throws in doubt it throws anyway, or it is exposed. -/
def Accounted (c : Configuration) (t : CppType) : Prop :=
  ∀ i, c.Whole (.record i) t → ∀ moving, t.doubted.contribution moving = .yes →
    t.contribution moving = .yes ∨
      c.Exposed i fun r => (CppType.complete r).contribution moving = .yes

section

variable (hstatic : c.OnlyStaticCycles)

include hstatic

theorem outline?_hide_of_holds {i j : Nat} (h : c.Holds i j) :
    (c.hide [j]).outline? i = c.outline? i := by
  have hne : i ≠ j := by
    rintro rfl
    exact hstatic.containmentAcyclic i h
  rw [outline?_hide, if_neg (by simpa using hne)]

/-- Around what is hidden whole answers still have a definition. -/
theorem exists_record_of_holds {i j : Nat} {t : CppType} (h : c.Holds i j)
    (ht : (c.hide [j]).Whole (.record i) t) : ∃ r, t = .complete r := by
  obtain ⟨k, hk, _⟩ := Relation.TransGen.head'_iff.mp h
  obtain ⟨o, ho, _⟩ := mem_contained.mp hk
  rw [← outline?_hide_of_holds hstatic h] at ho
  obtain ⟨bases, fields, rfl, _⟩ := ht.of_outline? ho
  exact ⟨_, rfl⟩

/-- Around what is hidden whole answers are made of what they were made of. -/
theorem parts_of_hide {i j : Nat} {o : Record Resolution} {r : Record CppType}
    (ho : c.outline? i = some o) (h : c.Holds i j)
    (hr : (c.hide [j]).Whole (.record i) (.complete r)) :
    r.ctors = o.ctors ∧ List.Forall₂ (OnType (c.hide [j]).Whole) o.subObjects r.subObjects ∧
      (r.isTrivial = true → ∀ s ∈ r.subObjects, s.1.isTrivial = true) := by
  obtain ⟨o', ho', hparts⟩ := hr.parts
  rw [outline?_hide_of_holds hstatic h] at ho'
  obtain rfl := Option.some.inj (ho.symm.trans ho')
  exact hparts

theorem ctors_of_hide {i j : Nat} {r r' : Record CppType} (hr : c.Whole (.record i) (.complete r))
    (h : c.Holds i j) (hr' : (c.hide [j]).Whole (.record i) (.complete r')) :
    r'.ctors = r.ctors := by
  obtain ⟨o, ho, hctors, -⟩ := hr.parts
  exact (parts_of_hide hstatic ho h hr').1.trans hctors.symm

/-- A constructor that throws in doubt throws anyway, or after something inside was hidden. -/
theorem throwing_or_exposed {i : Nat} {r : Record CppType} (hr : c.Whole (.record i) (.complete r))
    (hbelow : ∀ s ∈ r.subObjects, c.Accounted s.1)
    {ctor : Ctor} (hyes : ctor.throwing (some r.doubted) = .yes) :
    ctor.throwing (some r) = .yes ∨ c.Exposed i (·.Against (some ctor)) := by
  obtain ⟨o, ho, -, hparts, -⟩ := hr.parts
  rcases Ctor.throwing_eq_yes_iff.mp hyes with hw | ⟨hspec, s, hs, hyes⟩
  · exact Or.inl (Ctor.throwing_eq_yes_iff.mpr (Or.inl hw))
  · rw [Record.subObjects_doubted] at hs
    obtain ⟨⟨t, isConst⟩, ht, rfl⟩ := List.mem_map.mp hs
    obtain ⟨p, hp, hpt⟩ := exists_subObject_of_mem hparts ht
    cases p with
    | known u =>
      cases hpt with
      | known hd =>
        obtain ⟨_, _, hd', _⟩ := CppType.contribution_eq_yes_iff.mp hyes
        rw [CppType.definition_doubted, hd] at hd'
        cases hd'
    | record k =>
      have hk : k ∈ c.contained i := mem_contained.mpr ⟨o, ho, Record.mem_contained.mpr ⟨_, hp⟩⟩
      rcases hbelow _ ht k hpt _ hyes with h | ⟨j, hkj, hkind, hexp⟩
      · exact Or.inl (Ctor.throwing_eq_yes_iff.mpr (Or.inr ⟨hspec, _, ht, h⟩))
      · have hij : c.Holds i j := .head hk hkj
        refine Or.inr ⟨j, hij, hkind, fun r' hr' => ?_⟩
        obtain ⟨-, hparts', htriv⟩ := parts_of_hide hstatic ho hij hr'
        obtain ⟨u, hu, hku⟩ := exists_of_mem_subObject hparts' hp
        obtain ⟨q, rfl⟩ := exists_record_of_holds hstatic hkj hku
        have hyes' := hexp q hku
        constructor
        · rw [Bool.eq_false_iff]
          intro h
          cases (htriv h _ hu).symm.trans (CppType.contribution_eq_yes_iff.mp hyes').1
        · intro _ hctor
          obtain rfl := Option.some.inj hctor
          exact Ctor.throwing_eq_yes_iff.mpr (Or.inr ⟨hspec, _, hu, hyes'⟩)

/-- A record that is trivially copyable, but not in doubt, is exposed to not being so. -/
theorem exposed_of_isTrivial {i : Nat} {r : Record CppType} (hr : c.Whole (.record i) (.complete r))
    (htriv : r.isTrivial = true) (hdoubt : r.doubted.isTrivial = false) :
    c.Exposed i (·.isTrivial = false) := by
  obtain ⟨o, ho, -, hparts, -⟩ := hr.parts
  have hdef : r.hasDefinition = true := by
    rwa [Record.isTrivial_doubted, htriv, Bool.true_and, Bool.not_eq_false'] at hdoubt
  obtain ⟨⟨t, isConst⟩, ht, hd⟩ := List.any_eq_true.mp hdef
  obtain ⟨p, hp, hpt⟩ := exists_subObject_of_mem hparts ht
  cases hpt with
  | known h => cases (congrArg Option.isSome h).symm.trans hd
  | incomplete _ => cases hd
  | @complete j _ _ _ _ _ _ =>
    have hj : j ∈ c.contained i := mem_contained.mpr ⟨o, ho, Record.mem_contained.mpr ⟨_, hp⟩⟩
    refine ⟨j, .single hj, kindOf_of_mem_contained hj, fun r' hr' => ?_⟩
    obtain ⟨-, hparts', htriv'⟩ := parts_of_hide hstatic ho (.single hj) hr'
    obtain ⟨u, hu, hju⟩ := exists_of_mem_subObject hparts' hp
    rw [Bool.eq_false_iff]
    intro h
    cases hju with
    | incomplete _ => cases htriv' h _ hu
    | complete hnone _ _ =>
      rw [outline?_hide, if_pos List.mem_cons_self] at hnone
      cases hnone

/-- What speaks against a record in doubt speaks against it anyway, or after something inside was
hidden. -/
theorem against_or_exposed {i : Nat} {r : Record CppType} (hr : c.Whole (.record i) (.complete r))
    (hbelow : ∀ s ∈ r.subObjects, c.Accounted s.1)
    {ctor : Option Ctor} (h : r.doubted.Against ctor) :
    r.Against ctor ∨ c.Exposed i (·.Against ctor) := by
  obtain ⟨hdoubt, hctor⟩ := h
  cases htriv : r.isTrivial with
  | false =>
    cases ctor with
    | none => exact Or.inl ⟨htriv, fun _ h => nomatch h⟩
    | some d =>
      refine (throwing_or_exposed hstatic hr hbelow (hctor d rfl)).imp_left fun h => ?_
      exact ⟨htriv, fun _ hd => Option.some.inj hd ▸ h⟩
  | true =>
    obtain ⟨j, hij, hkind, hexp⟩ := exposed_of_isTrivial hstatic hr htriv hdoubt
    cases ctor with
    | none => exact Or.inr ⟨j, hij, hkind, fun r' hr' => ⟨hexp r' hr', fun _ h => nomatch h⟩⟩
    | some d =>
      rcases throwing_or_exposed hstatic hr hbelow (hctor d rfl) with h | h
      · -- nothing inside a trivially copyable record throws, so `d` is written to throw
        obtain ⟨o, _, -, -, hparts⟩ := hr.parts
        have hw : d.spec.written? = some .yes := by
          rcases Ctor.throwing_eq_yes_iff.mp h with hw | ⟨_, s, hs, hyes⟩
          · exact hw
          · cases (hparts htriv s hs).symm.trans (CppType.contribution_eq_yes_iff.mp hyes).1
        refine Or.inr ⟨j, hij, hkind, fun r' hr' => ⟨hexp r' hr', fun _ hd => ?_⟩⟩
        obtain rfl := Option.some.inj hd
        exact Ctor.throwing_of_written hw _
      · exact Or.inr h

/-- The induction on what an answer has inside. -/
theorem contribution_or_exposed (t : CppType) : c.Accounted t := by
  induction t using CppType.inductionOnSubObjects with
  | step t ih =>
    intro i ht moving h
    obtain ⟨r, rfl⟩ : ∃ r, t = .complete r := by
      cases ht with
      | incomplete _ =>
        obtain ⟨_, _, hd, _⟩ := CppType.contribution_eq_yes_iff.mp h
        rw [CppType.definition_doubted] at hd
        cases hd
      | complete _ _ _ => exact ⟨_, rfl⟩
    rw [CppType.doubted_complete, Record.contribution_iff_against] at h
    obtain ⟨d, hd, hagainst⟩ := h
    rw [Record.transferCtor?_congr r.ctors_doubted] at hd
    rcases against_or_exposed hstatic ht (ih r rfl) hagainst with h | ⟨j, hij, hkind, hexp⟩
    · exact Or.inl (Record.contribution_iff_against.mpr ⟨d, hd, h⟩)
    · refine Or.inr ⟨j, hij, hkind, fun r' hr' => Record.contribution_iff_against.mpr ⟨d, ?_⟩⟩
      rw [Record.transferCtor?_congr (ctors_of_hide hstatic ht hij hr')]
      exact ⟨hd, hexp r' hr'⟩

/-- **What degrades in doubt degrades anyway, or after something inside was hidden.** -/
theorem degrades_or_exposed {i : Nat} {t : CppType} (ht : c.Whole (.record i) t)
    (h : t.doubted.degrades = true) :
    t.degrades = true ∨ c.Exposed i fun r' => (CppType.complete r').degrades = true := by
  obtain ⟨r, rfl⟩ : ∃ r, t = .complete r := by
    cases ht with
    | incomplete _ => cases h
    | complete _ _ _ => exact ⟨_, rfl⟩
  rw [CppType.doubted_complete, Record.degrades_iff_against, Record.moveCtor?_congr r.ctors_doubted] at h
  have hbelow : ∀ s ∈ r.subObjects, c.Accounted s.1 :=
    fun s _ => contribution_or_exposed hstatic s.1
  rcases against_or_exposed hstatic ht hbelow h with h | ⟨j, hij, hkind, hexp⟩
  · exact Or.inl (Record.degrades_iff_against.mpr h)
  · refine Or.inr ⟨j, hij, hkind, fun r' hr' => Record.degrades_iff_against.mpr ?_⟩
    rw [Record.moveCtor?_congr (ctors_of_hide hstatic ht hij hr')]
    exact hexp r' hr'

end

end Configuration

end GrowthAudit
