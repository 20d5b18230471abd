import GrowthAudit.Proofs.Dump.Settled

/-!
# Where earlier questions linger

Suppose that `t` contains `x` and that `x` leads back to `t`.  Then there are functions for the
records with which the verdict on `t` depends on whether `x` was asked for before
(`Configuration.not_settled_blaming`).

* `Configuration.blaming x`: the same members, but `x` declares throwing constructors and no other
  record declares any.
* `Configuration.Known.of_leadsTo`: what a record leads to is remembered once it was asked for.  So
  after `x` was asked for, what is remembered for `t` was built inside `x`.
* `Configuration.hushes_rule`: whatever is built inside `x` has nothing against it, for the only
  record that throws is incomplete there.
* `Configuration.blames_rule`: if nothing was asked before, then `t` degrades because of `x`.

The three rules `covers_rule`, `hushes_rule` and `blames_rule` are about one run each; what they say
of a question follows by `Configuration.recordType_run`.
-/

namespace GrowthAudit

namespace Configuration

variable {c : Configuration}

/-! ### What a question leaves behind -/

/-- A type is remembered for the scope. -/
def Known (c : Configuration) (memo : Memo) (i : Nat) : Prop :=
  ∃ t, memo.lookup (c.keyOf i) = some t

theorem known_cons_iff (hkeys : Function.Injective c.keyOf) {memo : Memo} {i j : Nat}
    {t : CppType} : c.Known ((c.keyOf i, t) :: memo) j ↔ j = i ∨ c.Known memo j := by
  rw [Known, lookup_keyOf_cons hkeys]
  by_cases hij : j = i
  · simp [hij]
  · simp [hij, Known]

/-- The records that a remembered one mentions are remembered too, or they are being built, or they
have no body. -/
def Closed (c : Configuration) (path : List ScopeKey) (memo : Memo) : Prop :=
  ∀ j, c.Known memo j → ∀ k ∈ c.mentioned j, c.outline? k ≠ none →
    c.keyOf k ∈ path ∨ c.Known memo k

/-- What a run does to what is remembered: nothing is forgotten, the record itself is remembered or
being built, and nothing is left open. -/
def Covers (c : Configuration) (path : List ScopeKey) (i : Nat) (memo : Memo) (_ : CppType)
    (memo' : Memo) : Prop :=
  (∀ j, c.Known memo j → c.Known memo' j) ∧
    (c.outline? i ≠ none → c.keyOf i ∈ path ∨ c.Known memo' i) ∧
    (c.Closed path memo → c.Closed path memo')

theorem covers_rule (hkeys : Function.Injective c.keyOf) : c.RunRule c.Covers where
  remembered := by
    intro path i memo t ht
    exact ⟨fun _ h => h, fun _ => Or.inr ⟨t, ht⟩, fun h => h⟩
  met := by
    intro path i memo _ hpath
    exact ⟨fun _ h => h, fun _ => Or.inl hpath, fun h => h⟩
  bodiless := by
    intro path i memo _ hnone
    exact ⟨fun _ h => h, fun h => absurd hnone h, fun h => h⟩
  built := by
    intro path i memo o bases memo' fields memo'' _ _ ho hbases hfields
    have hparts := hbases.parts hfields
    obtain ⟨⟨hkeep, hclosed⟩, -⟩ := hparts.invariant (Q := fun _ _ => True)
      (I := fun m => (∀ j, c.Known memo j → c.Known m j) ∧
        (c.Closed path memo → c.Closed (c.keyOf i :: path) m)) (by
        rintro r _ m _ m' hrun ⟨hkeep, hclosed⟩
        cases hrun with
        | known => exact ⟨⟨hkeep, hclosed⟩, trivial⟩
        | record hrun =>
          exact ⟨⟨fun j h => hrun.1 j (hkeep j h), fun h => hrun.2.2 (hclosed h)⟩, trivial⟩)
      ⟨fun _ h => h, fun h j hj k hk hbody => (h j hj k hk hbody).imp_left (List.mem_cons_of_mem _)⟩
    have hmentioned := hparts.achieves
      (G := fun r m => ∀ k, r = .record k → c.outline? k ≠ none →
        c.keyOf k ∈ c.keyOf i :: path ∨ c.Known m k)
      (by
        rintro r m _ m' hrun k rfl hbody
        cases hrun with
        | record hrun => exact hrun.2.1 hbody)
      (by
        rintro x r m _ m' hrun hx k hk hbody
        cases hrun with
        | known => exact hx k hk hbody
        | record hrun => exact (hx k hk hbody).imp_right (hrun.1 k))
    have hself : c.Known ((c.keyOf i, .complete (.ofOutline o bases fields)) :: memo'') i :=
      (known_cons_iff hkeys).mpr (Or.inl rfl)
    -- what is being built below the record is the record itself or being built around it
    have hopen : ∀ k, c.keyOf k ∈ c.keyOf i :: path ∨ c.Known memo'' k → c.keyOf k ∈ path ∨
        c.Known ((c.keyOf i, .complete (.ofOutline o bases fields)) :: memo'') k := by
      rintro k (hk | hk)
      · rcases List.mem_cons.mp hk with hk | hk
        · exact Or.inr (hkeys hk ▸ hself)
        · exact Or.inl hk
      · exact Or.inr ((known_cons_iff hkeys).mpr (Or.inr hk))
    refine ⟨fun j hj => (known_cons_iff hkeys).mpr (Or.inr (hkeep j hj)), fun _ => Or.inr hself, ?_⟩
    intro h j hj k hk hbody
    rcases (known_cons_iff hkeys).mp hj with rfl | hj
    · obtain ⟨o', ho', hk⟩ := mem_mentioned.mp hk
      obtain rfl := Option.some.inj (ho.symm.trans ho')
      obtain ⟨r, hr, hrk⟩ := List.mem_filterMap.mp hk
      exact hopen k (hmentioned r hr k (Resolution.scope?_eq_some.mp hrk) hbody)
    · exact hopen k (hclosed h j hj k hk hbody)

/-- **What a record leads to is remembered once it was asked for.** -/
theorem Known.of_leadsTo (hkeys : Function.Injective c.keyOf) {i j : Nat} (h : c.LeadsTo i j)
    (hbody : c.outline? j ≠ none) : c.Known (c.recordType i []).2 j := by
  obtain ⟨-, hself, hclosed⟩ := recordType_run (covers_rule hkeys) i []
  replace hclosed := hclosed fun _ h => by
    obtain ⟨_, h⟩ := h
    cases h
  induction h with
  | refl => exact (hself hbody).resolve_left List.not_mem_nil
  | @tail k j _ hstep ih =>
    obtain ⟨o, ho, _⟩ := mem_mentioned.mp hstep
    have hk := ih (by rw [ho]; exact Option.some_ne_none o)
    exact (hclosed k hk j hstep hbody).resolve_left List.not_mem_nil

end Configuration

/-! ### Types that have nothing against them and types that throw -/

/-- The type does not degrade, and no record that has it as a part throws because of it. -/
def CppType.Quiet (t : CppType) : Prop :=
  t.degrades = false ∧ ∀ moving, t.contribution moving ≠ .yes

/-- A record throws because of every part of this type. -/
def CppType.Loud (t : CppType) : Prop :=
  t.isTrivial = false ∧ ∀ moving, t.contribution moving = .yes

theorem CppType.Quiet.of_definition {t : CppType} (h : t.definition = none) : t.Quiet := by
  constructor
  · simp [degrades, h]
  · intro moving hyes
    obtain ⟨_, _, hr, _⟩ := contribution_eq_yes_iff.mp hyes
    cases h.symm.trans hr

/-- The record has no constructors but those that the language adds. -/
def Record.Undeclared (r : Record τ) : Prop :=
  ∃ name location, r.ctors = [Configuration.impliedCtor name location true,
    Configuration.impliedCtor name location false]

namespace Record.Undeclared

variable {r : Record CppType} (h : r.Undeclared)

include h

theorem moveCtor? : ∃ c, r.moveCtor? = some c ∧ c.spec = .unevaluated := by
  obtain ⟨name, location, hctors⟩ := h
  exact ⟨_, by rw [Record.moveCtor?, hctors]; rfl, rfl⟩

theorem transferCtor? (moving : Bool) :
    ∃ c, r.transferCtor? moving = some c ∧ c.spec = .unevaluated := by
  obtain ⟨name, location, hctors⟩ := h
  refine ⟨Configuration.impliedCtor name location moving, ?_, rfl⟩
  rw [Record.transferCtor?, Record.moveCtor?, Record.copyCtor?, hctors]
  cases moving <;> rfl

theorem quiet (hparts : ∀ s ∈ r.subObjects, s.1.Quiet) : (CppType.complete r).Quiet := by
  have hno : ∀ c : Ctor, c.spec = .unevaluated → c.throwing (some r) ≠ .yes := by
    intro c hc hyes
    rw [Ctor.throwing_of_unevaluated hc, Record.derived_eq_yes] at hyes
    obtain ⟨s, hs, hyes⟩ := hyes
    exact (hparts s hs).2 _ hyes
  constructor
  · rw [Bool.eq_false_iff]
    intro hdeg
    obtain ⟨_, _, hr, hmove⟩ := CppType.degrades_iff.mp hdeg
    obtain rfl := Option.some.inj hr
    obtain ⟨c, hc, hspec⟩ := h.moveCtor?
    exact hno c hspec (hmove c hc)
  · intro moving hyes
    obtain ⟨_, _, hr, c, hc, hyes⟩ := CppType.contribution_eq_yes_iff.mp hyes
    obtain rfl := Option.some.inj hr
    obtain ⟨c', hc', hspec⟩ := h.transferCtor? moving
    obtain rfl := Option.some.inj (hc.symm.trans hc')
    exact hno c hspec hyes

theorem degrades (htriv : r.isTrivial = false) {s : CppType × Bool} (hs : s ∈ r.subObjects)
    (hloud : s.1.Loud) : (CppType.complete r).degrades = true := by
  refine CppType.degrades_iff.mpr ⟨htriv, r, rfl, fun c hc => ?_⟩
  obtain ⟨c', hc', hspec⟩ := h.moveCtor?
  obtain rfl := Option.some.inj (hc.symm.trans hc')
  rw [Ctor.throwing_of_unevaluated hspec, Record.derived_eq_yes]
  exact ⟨s, hs, hloud.2 _⟩

end Record.Undeclared

/-- The record declares a move and a copy constructor that throw. -/
def Record.Throwing (r : Record τ) : Prop :=
  r.isTrivial = false ∧ ∃ name, r.ctors = [
    { name, isMove := true, isUserProvided := true },
    { name, isCopy := true, isUserProvided := true }]

theorem Record.Throwing.ofOutline {o : Record Resolution} (h : o.Throwing)
    (bases : List (Base CppType)) (fields : List (Field CppType)) :
    (Record.ofOutline o bases fields).Throwing :=
  ⟨Bool.and_eq_false_iff.mpr (Or.inl h.1), h.2⟩

theorem Record.Throwing.loud {r : Record CppType} (h : r.Throwing) : (CppType.complete r).Loud := by
  obtain ⟨htriv, name, hctors⟩ := h
  refine ⟨htriv, fun moving => CppType.contribution_eq_yes_iff.mpr ⟨htriv, r, rfl, ?_⟩⟩
  refine ⟨{ name, isMove := moving, isCopy := !moving, isUserProvided := true }, ?_, rfl⟩
  rw [transferCtor?, moveCtor?, copyCtor?, hctors]
  cases moving <;> rfl

namespace Configuration

/-! ### One record that throws -/

/-- The same members, but the record `x` declares a move and a copy constructor without a
specification, and no other record declares a function. -/
def blaming (c : Configuration) (x : Nat) : Configuration :=
  { c with
    scopes := c.scopes.mapIdx fun i s =>
      { s with
        functions :=
          if i = x then [{ kind := .moveConstructor }, { kind := .copyConstructor }] else [] } }

theorem sameMembers_blaming (c : Configuration) (x : Nat) : (c.blaming x).SameMembers c := by
  refine ⟨rfl, List.ext_getElem? fun i => ?_⟩
  rw [blaming, List.getElem?_map, List.getElem?_map, List.getElem?_mapIdx, Option.map_map]
  rfl

theorem scope?_blaming {c : Configuration} {x i : Nat} {s : Scope}
    (h : (c.blaming x).scope? i = some s) :
    s.functions = if i = x then [{ kind := .moveConstructor }, { kind := .copyConstructor }] else [] := by
  rw [scope?, blaming, List.getElem?_mapIdx, Option.map_eq_some_iff] at h
  obtain ⟨_, _, rfl⟩ := h
  rfl

theorem ctorsOf_of_functions_eq_nil (c : Configuration) {s : Scope} (h : s.functions = [])
    (named : Location) :
    c.ctorsOf s named = [impliedCtor s.className named true, impliedCtor s.className named false] := by
  simp only [ctorsOf, addsMove, addsCopy, h]
  rfl

theorem undeclared_blaming {c : Configuration} {x i : Nat} {o : Record Resolution}
    (h : (c.blaming x).outline? i = some o) (hne : i ≠ x) : o.Undeclared := by
  obtain ⟨s, body, hs, -, rfl⟩ := outline?_eq_some_iff.mp h
  have hfunctions := scope?_blaming hs
  rw [if_neg hne] at hfunctions
  exact ⟨s.className, _, ctorsOf_of_functions_eq_nil _ hfunctions _⟩

theorem throwing_blaming {c : Configuration} {x : Nat} {o : Record Resolution}
    (h : (c.blaming x).outline? x = some o) : o.Throwing := by
  obtain ⟨s, body, hs, -, rfl⟩ := outline?_eq_some_iff.mp h
  have hfunctions := scope?_blaming hs
  rw [if_pos rfl] at hfunctions
  refine ⟨?_, s.className, ?_⟩
  · simp only [functionsAreTrivial, hfunctions]
    rfl
  · simp only [ctorsOf, addsMove, addsCopy, hfunctions]
    rfl

/-! ### Runs where one record throws -/

/-- What each run keeps and says, the runs for a definition keep and say of its sub-objects. -/
theorem subObjects_of_threads {P : Nat → Memo → CppType → Memo → Prop} {I : Memo → Prop}
    {R : Resolution → CppType → Prop} {o : Record Resolution} {bases : List (Base CppType)}
    {fields : List (Field CppType)} {memo memo' memo'' : Memo}
    (hbases : Memo.Thread (Base.Run P) o.bases memo bases memo')
    (hfields : Memo.Thread (Field.Run P) o.fields memo' fields memo'')
    (h : ∀ r m t m', Resolution.Run P r m t m' → I m → I m' ∧ R r t) (hmemo : I memo) :
    I memo'' ∧
      List.Forall₂ (OnType R) o.subObjects (Record.ofOutline o bases fields).subObjects := by
  obtain ⟨hmemo', hb⟩ := hbases.invariant (I := I) (Q := Base.Retyped R) (by
    rintro b _ m _ m' ⟨hrun⟩ hm
    obtain ⟨hm', ht⟩ := h _ _ _ _ hrun hm
    exact ⟨hm', .mk ht⟩) hmemo
  obtain ⟨hmemo'', hf⟩ := hfields.invariant (I := I) (Q := Field.Retyped R) (by
    rintro f _ m _ m' ⟨hrun⟩ hm
    obtain ⟨hm', ht⟩ := h _ _ _ _ hrun hm
    exact ⟨hm', .mk fun _ => ht⟩) hmemo'
  exact ⟨hmemo'', Record.subObjects_ofOutline hb hf⟩

/-- Nothing that is remembered has anything against it. -/
def AllQuiet (memo : Memo) : Prop := ∀ k t, memo.lookup k = some t → t.Quiet

theorem allQuiet_nil : AllQuiet [] := by
  intro k t h
  cases h

theorem AllQuiet.cons {memo : Memo} {k : ScopeKey} {t : CppType} (h : AllQuiet memo) (ht : t.Quiet) :
    AllQuiet ((k, t) :: memo) :=
  forall_lookup_cons h ht

/-- What a run does inside `x`, and what the run for `x` leaves behind. -/
def Hushes (c : Configuration) (x : Nat) (path : List ScopeKey) (i : Nat) (memo : Memo)
    (t : CppType) (memo' : Memo) : Prop :=
  AllQuiet memo → (c.keyOf x ∈ path → AllQuiet memo' ∧ t.Quiet) ∧
    (i = x → ∀ j u, j ≠ x → memo'.lookup (c.keyOf j) = some u → u.Quiet)

variable {c : Configuration}

section

variable {x : Nat} (hkeys : Function.Injective c.keyOf)

include hkeys

/-- Inside `x` nothing throws, since `x` is incomplete there. -/
theorem hushes_rule (hothers : ∀ i o, c.outline? i = some o → i ≠ x → o.Undeclared) :
    c.RunRule (c.Hushes x) where
  remembered := by
    intro path i memo t ht hmemo
    exact ⟨fun _ => ⟨hmemo, hmemo _ t ht⟩, fun _ j u _ hu => hmemo _ u hu⟩
  met := by
    intro path i memo _ _ hmemo
    exact ⟨fun _ => ⟨hmemo, .of_definition rfl⟩, fun _ j u _ hu => hmemo _ u hu⟩
  bodiless := by
    intro path i memo _ _ hmemo
    exact ⟨fun _ => ⟨hmemo, .of_definition rfl⟩, fun _ j u _ hu => hmemo _ u hu⟩
  built := by
    intro path i memo o bases memo' fields memo'' _ hpath ho hbases hfields hmemo
    have hbelow : c.keyOf x ∈ c.keyOf i :: path → AllQuiet memo'' ∧
        ∀ s ∈ (Record.ofOutline o bases fields).subObjects, s.1.Quiet := by
      intro hx
      obtain ⟨hmemo'', hparts⟩ := subObjects_of_threads (I := AllQuiet)
        (R := fun r t => r.Plain → t.Quiet) hbases hfields (by
          rintro r m t m' hrun hm
          cases hrun with
          | known => exact ⟨hm, fun hplain => .of_definition (hplain t rfl)⟩
          | record hrun =>
            obtain ⟨hm', ht⟩ := (hrun hm).1 hx
            exact ⟨hm', fun _ => ht⟩) hmemo
      refine ⟨hmemo'', ?_⟩
      rintro ⟨t, isConst⟩ ht
      obtain ⟨r, hr, hquiet⟩ := exists_subObject_of_mem hparts ht
      exact hquiet (found_of_mem_subObjects ho hr).plain
    constructor
    · intro hx
      have hne : i ≠ x := fun h => hpath (h ▸ hx)
      obtain ⟨hmemo'', hparts⟩ := hbelow (List.mem_cons_of_mem _ hx)
      have ht := Record.Undeclared.quiet (r := .ofOutline o bases fields) (hothers i o ho hne) hparts
      exact ⟨hmemo''.cons ht, ht⟩
    · rintro rfl j u hne hu
      obtain ⟨hmemo'', -⟩ := hbelow List.mem_cons_self
      rw [lookup_keyOf_cons hkeys, if_neg hne] at hu
      exact hmemo'' _ u hu

/-- What a run for `x` and one for a record that contains `x` say, if `x` is not being built. -/
def Blames (c : Configuration) (x : Nat) (path : List ScopeKey) (i : Nat) (memo : Memo)
    (t : CppType) (memo' : Memo) : Prop :=
  (∀ u, memo.lookup (c.keyOf x) = some u → u.Loud) →
    (∀ u, memo'.lookup (c.keyOf x) = some u → u.Loud) ∧
      (c.keyOf x ∉ path → (i = x → t.Loud) ∧
        (x ∈ c.contained i → i ≠ x → c.keyOf i ∉ path → memo.lookup (c.keyOf i) = none →
          t.degrades = true))

theorem blames_rule (hothers : ∀ i o, c.outline? i = some o → i ≠ x → o.Undeclared)
    (hself : ∀ o, c.outline? x = some o → o.Throwing) (hbody : c.outline? x ≠ none) :
    c.RunRule (c.Blames x) where
  remembered := by
    intro path i memo t ht hmemo
    refine ⟨hmemo, fun _ => ⟨fun h => hmemo t (h ▸ ht), fun _ _ _ hnone => ?_⟩⟩
    cases ht.symm.trans hnone
  met := by
    intro path i memo _ hpath hmemo
    exact ⟨hmemo, fun hx => ⟨fun h => absurd (h ▸ hpath) hx, fun _ _ hi => absurd hpath hi⟩⟩
  bodiless := by
    intro path i memo _ hnone hmemo
    refine ⟨hmemo, fun _ => ⟨fun h => absurd (h ▸ hnone) hbody, fun hx => ?_⟩⟩
    obtain ⟨o, ho, _⟩ := mem_contained.mp hx
    cases hnone.symm.trans ho
  built := by
    intro path i memo o bases memo' fields memo'' _ hpath ho hbases hfields hmemo
    obtain ⟨hmemo'', hparts⟩ := subObjects_of_threads
      (I := fun m => ∀ u, m.lookup (c.keyOf x) = some u → u.Loud)
      (R := fun r t => r = .record x → c.keyOf x ∉ c.keyOf i :: path → t.Loud) hbases hfields (by
        rintro r m t m' hrun hm
        cases hrun with
        | known => exact ⟨hm, fun h => nomatch h⟩
        | record hrun =>
          obtain ⟨hm', ht⟩ := hrun hm
          refine ⟨hm', fun h hx => (ht hx).1 ?_⟩
          exact Resolution.record.inj h) hmemo
    have hloud : i = x → (CppType.complete (.ofOutline o bases fields)).Loud := by
      rintro rfl
      exact ((hself o ho).ofOutline bases fields).loud
    refine ⟨?_, fun hx => ⟨hloud, fun hmem hne _ _ => ?_⟩⟩
    · intro u hu
      rw [lookup_keyOf_cons hkeys] at hu
      split at hu
      next hix => exact Option.some.inj hu ▸ hloud hix.symm
      next => exact hmemo'' u hu
    · obtain ⟨o', ho', hmem⟩ := mem_contained.mp hmem
      obtain rfl := Option.some.inj (ho.symm.trans ho')
      obtain ⟨isConst, hs⟩ := Record.mem_contained.mp hmem
      obtain ⟨t, ht, hR⟩ := exists_of_mem_subObject hparts hs
      have hloud : t.Loud := hR rfl fun h => by
        rcases List.mem_cons.mp h with h | h
        · exact hne (hkeys h).symm
        · exact hx h
      refine Record.Undeclared.degrades (r := .ofOutline o bases fields) (hothers i o ho hne) ?_ ht hloud
      rw [Bool.eq_false_iff]
      intro htriv
      have hall := ((Record.partsAreTrivial_iff o).mp (Bool.and_eq_true_iff.mp htriv).2).2
      cases hloud.1.symm.trans (hall _ ht)

end

/-- **Where a record is contained that leads back, verdicts are not settled.**  If `t` contains `x`
and `x` leads to `t`, then some functions of `x` let the verdict on `t` depend on whether `x` was
asked for before. -/
theorem not_settled_blaming (hkeys : Function.Injective c.keyOf) {t x : Nat}
    (hx : x ∈ c.contained t) (hne : t ≠ x) (hback : c.LeadsTo x t) :
    ¬ (c.blaming x).VerdictsSettled := by
  have hsame := c.sameMembers_blaming x
  have hothers : ∀ i o, (c.blaming x).outline? i = some o → i ≠ x → o.Undeclared :=
    fun i o ho hne => undeclared_blaming ho hne
  have hself : ∀ o, (c.blaming x).outline? x = some o → o.Throwing :=
    fun o ho => throwing_blaming ho
  replace hkeys : Function.Injective (c.blaming x).keyOf := hsame.keyOf_injective hkeys
  replace hx : x ∈ (c.blaming x).contained t := by rwa [hsame.contained]
  replace hback : (c.blaming x).LeadsTo x t :=
    Relation.ReflTransGen.mono (fun i j h => by rwa [hsame.mentioned]) _ _ hback
  intro hsettled
  obtain ⟨ot, hot, _⟩ := mem_contained.mp hx
  -- `x` has a body, since it mentions something
  have hbody : (c.blaming x).outline? x ≠ none := by
    rcases Relation.ReflTransGen.cases_head hback with rfl | ⟨j, hj, _⟩
    · exact absurd rfl hne
    · obtain ⟨o, ho, _⟩ := mem_mentioned.mp hj
      rw [ho]
      exact Option.some_ne_none o
  have hafter : ((c.blaming x).recordType t ((c.blaming x).recordType x []).2).1.degrades = false := by
    obtain ⟨u, hu⟩ := Known.of_leadsTo hkeys hback (by rw [hot]; exact Option.some_ne_none ot)
    obtain ⟨-, hquiet⟩ := recordType_run (hushes_rule hkeys hothers) x [] allQuiet_nil
    rw [recordType, recordWithin, hu]
    exact (hquiet rfl t u hne hu).1
  have hbefore : ((c.blaming x).recordType t []).1.degrades = true := by
    obtain ⟨-, hblames⟩ := recordType_run (blames_rule hkeys hothers hself hbody) t []
      (fun u h => by cases h)
    exact (hblames List.not_mem_nil).2 hx hne List.not_mem_nil rfl
  have heq := (hsettled [.record x]).1 t
  cases hafter.symm.trans (heq.trans hbefore)

end Configuration

end GrowthAudit
