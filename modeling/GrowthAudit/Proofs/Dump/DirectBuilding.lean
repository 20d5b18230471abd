import GrowthAudit.Proofs.Dump.Settled
import Mathlib.Order.WellFoundedSet

/-!
# Building without a memory

Where no record leads back to itself, not even through static members, a record type can be built by
plain recursion: `Configuration.directType` builds every base and every member anew, remembers
nothing, and does not look at what it is building.  The recursion ends because the records that a
record mentions are below it in a well-founded order (`Configuration.MentionAcyclic.wellFounded`).

`Configuration.recordType_memoAfter` says that what is remembered never shows: whatever was asked
before, the answer is the type that is built directly.  The invariant is that every entry of the
memory is such a type (`Configuration.DirectMemo`), and that a record which is being built leads to
whatever is asked for below it, so it is never met again.
-/

namespace GrowthAudit.Configuration

/-- The definition of the first scope leads to the second one in at least one step. -/
def Reaches (c : Configuration) : Nat → Nat → Prop :=
  Relation.TransGen fun i j => j ∈ c.mentioned i

/-- No record leads back to itself, through whatever bases and members. -/
def MentionAcyclic (c : Configuration) : Prop := ∀ i, ¬ c.Reaches i i

/-- It is enough that numbers go down along mention. -/
theorem mentionAcyclic_of_rank {c : Configuration} (rank : Nat → Nat)
    (h : ∀ i < c.scopes.length, ∀ j ∈ c.mentioned i, rank j < rank i) : c.MentionAcyclic := by
  refine not_transGen_of_rank rank fun i j hj => ?_
  obtain ⟨o, ho, _⟩ := mem_mentioned.mp hj
  exact h i (lt_length_of_outline? ho) j hj

namespace MentionAcyclic

variable {c : Configuration}

/-- Only scopes that are there mention anything, so every way down comes to an end. -/
theorem wellFounded (h : c.MentionAcyclic) : WellFounded fun j i => j ∈ c.mentioned i := by
  have hback : ∀ {i j}, Relation.TransGen (fun j i => j ∈ c.mentioned i) j i → c.Reaches i j :=
    fun hji => Relation.transGen_swap.mp hji
  have : IsStrictOrder Nat (Relation.TransGen fun j i => j ∈ c.mentioned i) :=
    { irrefl := fun i hi => h i (hback hi), trans := fun _ _ _ => Relation.TransGen.trans }
  have hbelow := Set.wellFoundedOn_iff.mp
    ((Set.finite_Iio c.scopes.length).wellFoundedOn
      (r := Relation.TransGen fun j i => j ∈ c.mentioned i))
  refine ⟨fun i => ?_⟩
  induction i using hbelow.induction with
  | _ i ih =>
    refine ⟨_, fun j hj => ?_⟩
    obtain ⟨o, ho, _⟩ := mem_mentioned.mp hj
    by_cases hlt : j < c.scopes.length
    · exact ih j ⟨.single hj, hlt, lt_length_of_outline? ho⟩
    · refine ⟨_, fun k hk => absurd ?_ hlt⟩
      obtain ⟨p, hp, _⟩ := mem_mentioned.mp hk
      exact lt_length_of_outline? hp

end MentionAcyclic

/-! ### The direct way -/

/-- The type of a record scope, all bases and members of which are built in the same way. -/
def directType (c : Configuration) (h : c.MentionAcyclic) (i : Nat) : CppType :=
  match _ho : c.outline? i with
  | none => .incomplete (c.qualifiedName i)
  | some o =>
    .complete (.ofOutline o
      (o.bases.attach.map fun b => b.1.withType
        (match _hb : b.1.type with
        | .known t => t
        | .record j => c.directType h j))
      (o.fields.attach.map fun f => f.1.withType
        (match _hf : f.1.type with
        | .known t => t
        | .record j => c.directType h j)))
termination_by h.wellFounded.wrap i
decreasing_by
  · exact mem_mentioned.mpr ⟨o, _ho, Record.mem_mentioned.mpr (Or.inl ⟨b.1, b.2, _hb⟩)⟩
  · exact mem_mentioned.mpr ⟨o, _ho, Record.mem_mentioned.mpr (Or.inr ⟨f.1, f.2, _hf⟩)⟩

/-- The type that a resolution means, built directly. -/
def directTypeOf (c : Configuration) (h : c.MentionAcyclic) : Resolution → CppType
  | .known t => t
  | .record i => c.directType h i

section

variable {c : Configuration} (h : c.MentionAcyclic)

theorem directType_of_none {i : Nat} (ho : c.outline? i = none) :
    c.directType h i = .incomplete (c.qualifiedName i) := by
  rw [directType]
  split
  · rfl
  next o ho' => cases ho.symm.trans ho'

theorem directType_of_some {i : Nat} {o : Record Resolution} (ho : c.outline? i = some o) :
    c.directType h i = .complete (.ofOutline o
      (o.bases.map fun b => b.withType (c.directTypeOf h b.type))
      (o.fields.map fun f => f.withType (c.directTypeOf h f.type))) := by
  rw [directType]
  split
  next ho' => cases ho.symm.trans ho'
  next o' ho' =>
    obtain rfl := Option.some.inj (ho.symm.trans ho')
    refine congrArg CppType.complete (congrArg₂ (Record.ofOutline o) ?_ ?_)
    · refine Eq.trans (List.map_congr_left fun b _ => ?_) List.attach_map_val
      split
      next hr => rw [hr]; rfl
      next hr => rw [hr]; rfl
    · refine Eq.trans (List.map_congr_left fun f _ => ?_) List.attach_map_val
      split
      next hr => rw [hr]; rfl
      next hr => rw [hr]; rfl

/-! ### What is remembered is built directly -/

/-- Every type that is remembered is the one that is built directly. -/
def DirectMemo (memo : Memo) : Prop :=
  ∀ i t, memo.lookup (c.keyOf i) = some t → t = c.directType h i

theorem directMemo_nil : DirectMemo h [] := nofun

variable {h}

theorem DirectMemo.cons (hkeys : Function.Injective c.keyOf) {memo : Memo} {i : Nat} {t : CppType}
    (hmemo : DirectMemo h memo) (ht : t = c.directType h i) :
    DirectMemo h ((c.keyOf i, t) :: memo) :=
  forall_lookup_keyOf_cons hkeys hmemo ht

variable (h)

/-- What a run does if the records that are being built lead to where it is. -/
def BuildsDirectly (path : List ScopeKey) (i : Nat) (memo : Memo) (t : CppType) (memo' : Memo) :
    Prop :=
  (∀ p, c.keyOf p ∈ path → c.Reaches p i) → DirectMemo h memo →
    DirectMemo h memo' ∧ t = c.directType h i

variable {h}

theorem BuildsDirectly.of_run {path : List ScopeKey} {r : Resolution} {t : CppType}
    {memo memo' : Memo} (hrun : r.Run (BuildsDirectly h path) memo t memo')
    (hreaches : ∀ j, r = .record j → ∀ p, c.keyOf p ∈ path → c.Reaches p j)
    (hmemo : DirectMemo h memo) : DirectMemo h memo' ∧ t = c.directTypeOf h r := by
  cases hrun with
  | known => exact ⟨hmemo, rfl⟩
  | record hrun => exact hrun (hreaches _ rfl) hmemo

/-- A record that is being built is never met again, since it would lead back to itself. -/
theorem buildsDirectly_rule (hkeys : Function.Injective c.keyOf) :
    c.RunRule (BuildsDirectly h) where
  remembered := by
    intro path i memo t ht _ hmemo
    exact ⟨hmemo, hmemo i t ht⟩
  met := by
    intro path i memo _ hpath hreaches _
    exact absurd (hreaches i hpath) (h i)
  bodiless := by
    intro path i memo _ hnone _ hmemo
    exact ⟨hmemo, (directType_of_none h hnone).symm⟩
  built := by
    intro path i memo o bases memo' fields memo'' _ _ ho hbases hfields hreaches hmemo
    have hbelow : ∀ j ∈ o.mentioned, ∀ p, c.keyOf p ∈ c.keyOf i :: path → c.Reaches p j := by
      intro j hj
      have hij : j ∈ c.mentioned i := mem_mentioned.mpr ⟨o, ho, hj⟩
      exact forall_keyOf_mem_cons hkeys (.single hij) fun p hp => .tail (hreaches p hp) hij
    obtain ⟨hmemo', hbases⟩ := hbases.invariant (I := DirectMemo h)
      (Q := fun b b' => b.withType (c.directTypeOf h b.type) = b') (by
        rintro b hb m _ m' ⟨hrun⟩ hm
        obtain ⟨hm', rfl⟩ := BuildsDirectly.of_run hrun
          (fun j hj => hbelow j (Record.mem_mentioned.mpr (Or.inl ⟨b, hb, hj⟩))) hm
        exact ⟨hm', rfl⟩) hmemo
    obtain ⟨hmemo'', hfields⟩ := hfields.invariant (I := DirectMemo h)
      (Q := fun f f' => f.withType (c.directTypeOf h f.type) = f') (by
        rintro f hf m _ m' ⟨hrun⟩ hm
        obtain ⟨hm', rfl⟩ := BuildsDirectly.of_run hrun
          (fun j hj => hbelow j (Record.mem_mentioned.mpr (Or.inr ⟨f, hf, hj⟩))) hm
        exact ⟨hm', rfl⟩) hmemo'
    rw [← List.forall₂_map_left_iff, List.forall₂_eq_eq_eq] at hbases hfields
    have ht : CppType.complete (.ofOutline o bases fields) = c.directType h i := by
      rw [directType_of_some h ho, hbases, hfields]
    exact ⟨hmemo''.cons hkeys ht, ht⟩

theorem typeOf_eq_directTypeOf (hkeys : Function.Injective c.keyOf) (r : Resolution) {memo : Memo}
    (hmemo : DirectMemo h memo) :
    DirectMemo h (c.typeOf r memo).2 ∧ (c.typeOf r memo).1 = c.directTypeOf h r :=
  BuildsDirectly.of_run (typeOf_run (buildsDirectly_rule hkeys) r memo)
    (fun _ _ _ hp => nomatch hp) hmemo

theorem directMemo_memoAfter (hkeys : Function.Injective c.keyOf) (queries : List Query) :
    DirectMemo h (c.memoAfter queries) :=
  memoAfter_invariant (directMemo_nil h)
    (fun q _ hmemo => (typeOf_eq_directTypeOf hkeys (c.resolve q) hmemo).1) queries

end

/-- **What is remembered never shows.**  After whatever questions, the type of a record is the one
that is built directly. -/
theorem recordType_memoAfter {c : Configuration} (hkeys : Function.Injective c.keyOf)
    (h : c.MentionAcyclic) (queries : List Query) (i : Nat) :
    (c.recordType i (c.memoAfter queries)).1 = c.directType h i :=
  (typeOf_eq_directTypeOf hkeys (.record i) (directMemo_memoAfter hkeys queries)).2

/-- `struct T { T(T&&); }; struct M { static T s; T t; }; struct O : M { T u; M m; };`, with the
scopes of `T`, `M` and `O` in this order. -/
def layeredSample : Configuration where
  tokens := [
    { text := "struct" }, { text := "T" }, { text := "\x7b" }, { text := "T" }, { text := "(" },
    { text := "T" }, { text := "&&" }, { text := ")" }, { text := ";" }, { text := "\x7d" },
    { text := ";" },
    { text := "struct" }, { text := "M" }, { text := "\x7b" }, { text := "static" }, { text := "T" },
    { text := "s", valueType := some { type := "record", scope := some 0 } }, { text := ";" },
    { text := "T" }, { text := "t", valueType := some { type := "record", scope := some 0 } },
    { text := ";" }, { text := "\x7d" }, { text := ";" },
    { text := "struct" }, { text := "O" }, { text := ":" }, { text := "M", scope := some 1 },
    { text := "\x7b" }, { text := "T" },
    { text := "u", valueType := some { type := "record", scope := some 0 } }, { text := ";" },
    { text := "M" }, { text := "m", valueType := some { type := "record", scope := some 1 } },
    { text := ";" }, { text := "\x7d" }, { text := ";" }]
  scopes := [
    { kind := .record, className := "T", id := some "1", bodyStart := some 2
      functions := [{ kind := .moveConstructor, nameToken := some 3 }] },
    { kind := .record, className := "M", id := some "2", bodyStart := some 13
      members := [
        { nameToken := some 16, typeStart := some 15, typeEnd := some 15, isStatic := true },
        { nameToken := some 19, typeStart := some 18, typeEnd := some 18 }] },
    { kind := .record, className := "O", id := some "3", bodyStart := some 27
      members := [
        { nameToken := some 29, typeStart := some 28, typeEnd := some 28 },
        { nameToken := some 32, typeStart := some 31, typeEnd := some 31 }] }]

theorem mentionAcyclic_layeredSample : layeredSample.MentionAcyclic :=
  mentionAcyclic_of_rank (fun i => i) (by decide)

theorem recordType_memoAfter_sample :
    Function.Injective layeredSample.keyOf ∧ layeredSample.mentioned 2 = [1, 0, 1] ∧
      (layeredSample.recordType 2 (layeredSample.memoAfter [.record 1, .name "T"])).1 =
        layeredSample.directType mentionAcyclic_layeredSample 2 ∧
      (layeredSample.directType mentionAcyclic_layeredSample 2).degrades = true := by
  have hkeys : Function.Injective layeredSample.keyOf := keyOf_injective_of_nodup (by decide)
  have hdirect := recordType_memoAfter hkeys mentionAcyclic_layeredSample
  refine ⟨hkeys, by decide, hdirect [.record 1, .name "T"] 2, ?_⟩
  rw [← hdirect [.record 1, .name "T"] 2]
  decide +kernel

end GrowthAudit.Configuration
