import GrowthAudit.Proofs.CppType.Ambiguity
import GrowthAudit.Proofs.Dump.Building
import GrowthAudit.Proofs.Dump.Containment
import GrowthAudit.Proofs.Dump.NameLookup

/-!
# What an answer may look like

`c.Means cut r t` says which types `t` are good answers for a resolution `r`: the definition is the
one of the configuration, and so on for bases and own members all the way down, but records in `cut`
may be left incomplete.  `c.Whole` is the case where none may.

The builder leaves a record incomplete where it is met while it is being built.  A base or own
member is met in this way only if it leads back to the record that contains it, so it is enough if
`cut` has all of these: `typeOf_means`.  There are none where cycles are static (`typeOf_whole`),
and all records together are always enough (`typeOf_means_anything`).

Two whole answers for one resolution may differ in the types of static members.  The verdict does
not see these: `Whole.degrades_eq`.
-/

namespace GrowthAudit

/-- A type that is known at once has no definition. -/
def Resolution.Plain (r : Resolution) : Prop := ∀ t, r = .known t → t.definition = none

theorem Resolution.plain_record (i : Nat) : (Resolution.record i).Plain := nofun

/-- What a lookup can find: a type without a definition, or the scope of a record. -/
inductive Resolution.Found (c : Configuration) : Resolution → Prop
  | known {t : CppType} : t.definition = none → Found c (.known t)
  | record {i : Nat} : c.kindOf i = .record → Found c (.record i)

theorem Resolution.Found.plain {c : Configuration} {r : Resolution} (h : r.Found c) : r.Plain := by
  rintro t rfl
  cases h with
  | known h => exact h

theorem Resolution.Found.kindOf {c : Configuration} {i : Nat} (h : (Resolution.record i).Found c) :
    c.kindOf i = .record := by
  cases h with
  | record h => exact h

namespace Configuration

/-! ### What lookups find -/

section

variable (c : Configuration)

theorem found_lookupName (name : String) : (c.lookupName name).Found c := by
  rw [lookupName]
  split
  · exact .known rfl
  · split
    next j hj =>
      obtain ⟨s, hs, hkind, -⟩ := mem_named.mp (mem_named_of_findRecord? hj)
      refine .record ?_
      rw [kindOf, hs]
      exact hkind
    next => exact .known rfl

theorem found_lookupScope (i : Nat) (name : String) : (c.lookupScope i name).Found c := by
  rw [lookupScope]
  split
  · exact .known rfl
  next hi => exact .record hi
  · exact c.found_lookupName name

theorem found_lookupTokens (ts : List Token) : (c.lookupTokens ts).Found c := by
  simp only [lookupTokens]
  split
  · exact .known rfl
  · split
    · exact .known rfl
    · split
      · exact c.found_lookupScope _ _
      · exact c.found_lookupName _

theorem found_lookupValueType? {v : Variable} {vt : ValueType} {r : Resolution}
    (h : c.lookupValueType? v vt = some r) : r.Found c := by
  rw [lookupValueType?] at h
  split at h
  · cases h
  · split at h
    · rw [← Option.some.inj h]
      exact c.found_lookupScope _ _
    · split at h
      · rw [← Option.some.inj h]
        exact .known rfl
      · cases h

theorem found_lookupVariable (v : Variable) : (c.lookupVariable v).Found c := by
  simp only [lookupVariable]
  split
  · exact .known rfl
  · split
    next r hr =>
      obtain ⟨vt, _, hvt⟩ := Option.bind_eq_some_iff.mp hr
      exact c.found_lookupValueType? hvt
    next => exact c.found_lookupTokens _

end

variable {c : Configuration}

theorem found_of_outline? {i : Nat} {o : Record Resolution} (h : c.outline? i = some o) :
    (∀ b ∈ o.bases, b.type.Found c) ∧ ∀ f ∈ o.fields, f.type.Found c := by
  obtain ⟨s, body, -, -, rfl⟩ := outline?_eq_some_iff.mp h
  constructor
  · intro b hb
    obtain ⟨clause, _, rfl⟩ := List.mem_map.mp hb
    exact c.found_lookupTokens _
  · intro f hf
    obtain ⟨v, _, rfl⟩ := List.mem_map.mp hf
    exact c.found_lookupVariable v

theorem found_of_mem_subObjects {i : Nat} {o : Record Resolution} (h : c.outline? i = some o)
    {s : Resolution × Bool} (hs : s ∈ o.subObjects) : s.1.Found c := by
  obtain ⟨hbases, hfields⟩ := found_of_outline? h
  rcases Record.mem_subObjects.mp hs with ⟨b, hb, rfl⟩ | ⟨f, hf, _, rfl⟩
  · exact hbases b hb
  · exact hfields f hf

/-! ### Good answers -/

/-- `t` is what `r` means, where records in `cut` may be left incomplete. -/
inductive Means (c : Configuration) (cut : Nat → Prop) : Resolution → CppType → Prop
  | known {t : CppType} : t.definition = none → Means c cut (.known t) t
  | incomplete {i : Nat} : c.outline? i = none ∨ cut i →
      Means c cut (.record i) (.incomplete (c.qualifiedName i))
  | complete {i : Nat} {o : Record Resolution} {bases : List (Base CppType)}
      {fields : List (Field CppType)} : c.outline? i = some o →
      List.Forall₂ (Base.Retyped (Means c cut)) o.bases bases →
      List.Forall₂ (Field.Retyped (Means c cut)) o.fields fields →
      Means c cut (.record i) (.complete (.ofOutline o bases fields))

/-- `t` is what `r` means, and every base and own member in it that has a definition shows it. -/
abbrev Whole (c : Configuration) : Resolution → CppType → Prop := c.Means fun _ => False

/-- Everything that is remembered is a good answer for its scope. -/
def Remembers (c : Configuration) (cut : Nat → Prop) (memo : Memo) : Prop :=
  ∀ i t, memo.lookup (c.keyOf i) = some t → c.Means cut (.record i) t

theorem remembers_nil (cut : Nat → Prop) : c.Remembers cut [] := nofun

theorem Remembers.cons {cut : Nat → Prop} {memo : Memo} {i : Nat} {t : CppType}
    (hkeys : Function.Injective c.keyOf) (h : c.Remembers cut memo)
    (ht : c.Means cut (.record i) t) : c.Remembers cut ((c.keyOf i, t) :: memo) :=
  forall_lookup_keyOf_cons hkeys h ht

/-! ### Runs give good answers -/

/-- What a run keeps if the records that are being built lead to where it is. -/
def Answers (c : Configuration) (cut : Nat → Prop) (path : List ScopeKey) (i : Nat) (memo : Memo)
    (t : CppType) (memo' : Memo) : Prop :=
  (∀ p, c.keyOf p ∈ path → c.LeadsTo p i) → c.Remembers cut memo →
    c.Remembers cut memo' ∧ ((c.keyOf i ∈ path → cut i) → c.Means cut (.record i) t)

theorem Answers.of_run {cut : Nat → Prop} {path : List ScopeKey} {r : Resolution} {t : CppType}
    {memo memo' : Memo} (hplain : r.Plain) (hrun : r.Run (c.Answers cut path) memo t memo')
    (hleads : ∀ j, r = .record j → ∀ p, c.keyOf p ∈ path → c.LeadsTo p j)
    (hmemo : c.Remembers cut memo) :
    c.Remembers cut memo' ∧ ((∀ j, r = .record j → c.keyOf j ∈ path → cut j) → c.Means cut r t) := by
  cases hrun with
  | known => exact ⟨hmemo, fun _ => .known (hplain t rfl)⟩
  | @record j _ _ _ hrun =>
    obtain ⟨hmemo', ht⟩ := hrun (hleads j rfl) hmemo
    exact ⟨hmemo', fun hcut => ht (hcut j rfl)⟩

/-- A record can be met while it is being built only where it leads back. -/
theorem answers_rule {cut : Nat → Prop} (hkeys : Function.Injective c.keyOf)
    (hcut : ∀ i, ∀ j ∈ c.contained i, c.LeadsTo j i → cut j) : c.RunRule (c.Answers cut) where
  remembered := by
    intro path i memo t ht _ hmemo
    exact ⟨hmemo, fun _ => hmemo i t ht⟩
  met := by
    intro path i memo _ hpath _ hmemo
    exact ⟨hmemo, fun hcut => .incomplete (Or.inr (hcut hpath))⟩
  bodiless := by
    intro path i memo _ hnone _ hmemo
    exact ⟨hmemo, fun _ => .incomplete (Or.inl hnone)⟩
  built := by
    intro path i memo o bases memo' fields memo'' _ hpath ho hbases hfields hleads hmemo
    obtain ⟨hfoundBases, hfoundFields⟩ := found_of_outline? ho
    -- everything on the path leads to the parts of the record, and what leads back is in `cut`
    have hbelow : ∀ p, c.keyOf p ∈ c.keyOf i :: path → c.LeadsTo p i :=
      forall_keyOf_mem_cons hkeys .refl hleads
    have hstep : ∀ j ∈ o.mentioned, ∀ p, c.keyOf p ∈ c.keyOf i :: path → c.LeadsTo p j :=
      fun j hj p hp => .tail (hbelow p hp) (mem_mentioned.mpr ⟨o, ho, hj⟩)
    have hback : ∀ j ∈ o.contained, c.keyOf j ∈ c.keyOf i :: path → cut j :=
      fun j hj hp => hcut i j (mem_contained.mpr ⟨o, ho, hj⟩) (hbelow j hp)
    obtain ⟨hmemo', hbases⟩ := hbases.invariant (I := c.Remembers cut)
      (Q := Base.Retyped (c.Means cut)) (by
        rintro b hb m _ m' ⟨hrun⟩ hm
        obtain ⟨hm', ht⟩ := Answers.of_run (hfoundBases b hb).plain hrun
          (fun j hj => hstep j (Record.mem_mentioned.mpr (Or.inl ⟨b, hb, hj⟩))) hm
        refine ⟨hm', .mk (ht fun j hj => hback j (Record.mem_contained.mpr ⟨false, ?_⟩))⟩
        exact Record.mem_subObjects.mpr (Or.inl ⟨b, hb, by rw [hj]⟩)) hmemo
    obtain ⟨hmemo'', hfields⟩ := hfields.invariant (I := c.Remembers cut)
      (Q := Field.Retyped (c.Means cut)) (by
        rintro f hf m _ m' ⟨hrun⟩ hm
        obtain ⟨hm', ht⟩ := Answers.of_run (hfoundFields f hf).plain hrun
          (fun j hj => hstep j (Record.mem_mentioned.mpr (Or.inr ⟨f, hf, hj⟩))) hm
        refine ⟨hm', .mk fun hown => ht fun j hj => hback j (Record.mem_contained.mpr ⟨f.isConst, ?_⟩)⟩
        exact Record.mem_subObjects.mpr (Or.inr ⟨f, hf, hown, by rw [hj]⟩)) hmemo'
    have ht := Means.complete ho hbases hfields
    exact ⟨hmemo''.cons hkeys ht, fun _ => ht⟩

section

variable {cut : Nat → Prop} (hkeys : Function.Injective c.keyOf)
  (hcut : ∀ i, ∀ j ∈ c.contained i, c.LeadsTo j i → cut j)

include hkeys hcut

/-- **Records that lead back to where they are contained may be cut, and no others are.** -/
theorem typeOf_means {r : Resolution} (hplain : r.Plain) {memo : Memo}
    (hmemo : c.Remembers cut memo) :
    c.Means cut r (c.typeOf r memo).1 ∧ c.Remembers cut (c.typeOf r memo).2 := by
  have hrun := typeOf_run (answers_rule hkeys hcut) r memo
  obtain ⟨hmemo', ht⟩ := Answers.of_run hplain hrun (fun _ _ _ hp => nomatch hp) hmemo
  exact ⟨ht fun _ _ hp => (nomatch hp), hmemo'⟩

end

theorem typeOf_whole (hkeys : Function.Injective c.keyOf) (hstatic : c.OnlyStaticCycles)
    {r : Resolution} (hplain : r.Plain) {memo : Memo} (hmemo : c.Remembers (fun _ => False) memo) :
    c.Whole r (c.typeOf r memo).1 ∧ c.Remembers (fun _ => False) (c.typeOf r memo).2 :=
  typeOf_means hkeys hstatic hplain hmemo

theorem typeOf_means_anything (hkeys : Function.Injective c.keyOf) {r : Resolution}
    (hplain : r.Plain) : c.Means (fun _ => True) r (c.typeOf r []).1 :=
  (typeOf_means hkeys (fun _ _ _ _ => trivial) hplain (remembers_nil _)).1

end Configuration

/-! ### Whole answers agree -/

theorem Base.virtual_iff {R : τ → σ → Prop} {as : List (Base τ)} {bs : List (Base σ)}
    (h : List.Forall₂ (Base.Retyped R) as bs) :
    (∀ b ∈ as, b.isVirtual = false) ↔ ∀ b ∈ bs, b.isVirtual = false := by
  induction h with
  | nil => simp
  | cons hb _ ih =>
    cases hb
    rw [List.forall_mem_cons, List.forall_mem_cons, ih]

theorem Record.subObjects_ofOutline {R : Resolution → CppType → Prop} {o : Record Resolution}
    {bases : List (Base CppType)} {fields : List (Field CppType)}
    (hbases : List.Forall₂ (Base.Retyped R) o.bases bases)
    (hfields : List.Forall₂ (Field.Retyped R) o.fields fields) :
    List.Forall₂ (OnType R) o.subObjects (ofOutline o bases fields).subObjects :=
  subObjects_forall₂ hbases hfields

theorem Record.partsAreTrivial_eq_true_iff {bases : List (Base CppType)}
    {fields : List (Field CppType)} :
    partsAreTrivial bases fields = true ↔
      (∀ b ∈ bases, b.isVirtual = false ∧ b.type.isTrivial = true) ∧
        ∀ f ∈ fields, f.isOwn = true → f.type.isTrivial = true := by
  simp only [partsAreTrivial, Bool.and_eq_true, List.all_eq_true, Bool.not_eq_true',
    Bool.or_eq_true]
  refine and_congr_right fun _ => forall₂_congr fun f _ => ?_
  cases f.isOwn <;> simp

theorem Record.partsAreTrivial_iff (o : Record Resolution) {bases : List (Base CppType)}
    {fields : List (Field CppType)} :
    partsAreTrivial bases fields = true ↔ (∀ b ∈ bases, b.isVirtual = false) ∧
      ∀ s ∈ (ofOutline o bases fields).subObjects, s.1.isTrivial = true := by
  simp only [partsAreTrivial_eq_true_iff, mem_subObjects]
  constructor
  · rintro ⟨hb, hf⟩
    refine ⟨fun b h => (hb b h).1, ?_⟩
    rintro _ (⟨b, h, rfl⟩ | ⟨f, h, hown, rfl⟩)
    · exact (hb b h).2
    · exact hf f h hown
  · rintro ⟨hv, hs⟩
    exact ⟨fun b h => ⟨hv b h, hs _ (Or.inl ⟨b, h, rfl⟩)⟩,
      fun f h hown => hs _ (Or.inr ⟨f, h, hown, rfl⟩)⟩

/-- A definition with the given types is trivially copyable as far as its outline allows it and its
sub-objects are. -/
theorem Record.isTrivial_ofOutline_iff {R : Resolution → CppType → Prop} {o : Record Resolution}
    {bases : List (Base CppType)} {fields : List (Field CppType)}
    (hbases : List.Forall₂ (Base.Retyped R) o.bases bases) :
    (ofOutline o bases fields).isTrivial = true ↔
      o.isTrivial = true ∧ (∀ b ∈ o.bases, b.isVirtual = false) ∧
        ∀ s ∈ (ofOutline o bases fields).subObjects, s.1.isTrivial = true := by
  rw [Base.virtual_iff hbases, ← partsAreTrivial_iff o]
  exact Bool.and_eq_true_iff

theorem onType_of_common {A : ρ → τ → Prop} {B : ρ → σ → Prop} {os : List (ρ × Bool)}
    {xs : List (τ × Bool)} {ys : List (σ × Bool)} (hx : List.Forall₂ (OnType A) os xs)
    (hy : List.Forall₂ (OnType B) os ys) :
    List.Forall₂ (OnType fun t u => ∃ r, A r t ∧ B r u) xs ys := by
  induction hx generalizing ys with
  | nil =>
    cases hy
    exact .nil
  | cons h _ ih =>
    cases hy with
    | cons h' hrest =>
      cases h with
      | mk ha =>
        cases h' with
        | mk hb => exact .cons (.mk ⟨_, ha, hb⟩) (ih hrest)

namespace Configuration

variable {c : Configuration}

theorem Whole.of_outline? {i : Nat} {o : Record Resolution} {t : CppType}
    (h : c.Whole (.record i) t) (ho : c.outline? i = some o) :
    ∃ bases fields, t = .complete (.ofOutline o bases fields) ∧
      List.Forall₂ (Base.Retyped c.Whole) o.bases bases ∧
      List.Forall₂ (Field.Retyped c.Whole) o.fields fields := by
  cases h with
  | incomplete h => cases (h.resolve_right id).symm.trans ho
  | complete ho' hb hf =>
    obtain rfl := Option.some.inj (ho.symm.trans ho')
    exact ⟨_, _, rfl, hb, hf⟩

theorem Whole.isTrivial_of_whole {r : Resolution} {t u : CppType} (ht : c.Whole r t)
    (hu : c.Whole r u) (htriv : t.isTrivial = true) : u.isTrivial = true := by
  induction t using CppType.inductionOnSubObjects generalizing r u with
  | step t ih =>
    cases ht with
    | known _ =>
      cases hu
      exact htriv
    | incomplete _ => cases htriv
    | @complete i o bases fields ho hb hf =>
      obtain ⟨bases', fields', rfl, hb', hf'⟩ := hu.of_outline? ho
      obtain ⟨ho, hv, hs⟩ := (Record.isTrivial_ofOutline_iff hb).mp htriv
      refine (Record.isTrivial_ofOutline_iff hb').mpr ⟨ho, hv, ?_⟩
      rintro ⟨u, isConst⟩ hu
      obtain ⟨t, ht, r, hrt, hru⟩ := exists_subObject_of_mem
        (onType_of_common (Record.subObjects_ofOutline hb hf)
          (Record.subObjects_ofOutline hb' hf')) hu
      exact ih _ rfl _ ht hrt hru (hs _ ht)

theorem softens_whole : Softens fun t u => ∃ r, c.Whole r t ∧ c.Whole r u := by
  rintro t u ⟨r, ht, hu⟩
  cases hu with
  | known h => exact .silent (Or.inr h)
  | incomplete _ => exact .silent (Or.inr rfl)
  | @complete i o bases fields ho hb hf =>
    have hu := Means.complete ho hb hf
    have htriv := fun h => Whole.isTrivial_of_whole ht hu h
    obtain ⟨bases', fields', rfl, hb', hf'⟩ := ht.of_outline? ho
    refine .alike rfl rfl rfl htriv (List.forall₂_same.mpr fun _ _ => Or.inl rfl) ?_
    exact onType_of_common (Record.subObjects_ofOutline hb' hf') (Record.subObjects_ofOutline hb hf)

/-- **Whole answers for one resolution have the same verdict.** -/
theorem Whole.degrades_eq {r : Resolution} {t u : CppType} (ht : c.Whole r t) (hu : c.Whole r u) :
    t.degrades = u.degrades :=
  Bool.eq_iff_iff.mpr ⟨softens_whole.degrades ⟨r, hu, ht⟩, softens_whole.degrades ⟨r, ht, hu⟩⟩

end Configuration

end GrowthAudit
