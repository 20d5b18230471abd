import GrowthAudit.Proofs.Dump.Construction
import GrowthAudit.Proofs.Dump.Loops
import GrowthAudit.Proofs.Dump.Settled

/-!
# Construction comes to an end

`Configuration.construction_ends` is about every desk that can be met, also in the middle of other
constructions, and about whatever records, also those that contain themselves.  Every question is
answered there, in one way only.  What was under way before is under way again, what is remembered
stays for ever, and no way down through the answer comes twice to a definition that was built for
the same key.

The last part needs to know what is inside the records that are finished.  Everything in there was
finished before (`Desk.Sound`), while the key of a record that is under way is not finished.  So a
record is not inside its parts.  This is what one step between desks preserves
(`Configuration.Passes.desk_sound`), and hence all of them (`Configuration.Reachable.sound`).
-/

namespace GrowthAudit

/-! ### Ways down -/

namespace Labelled

/-- The keys of the definitions on a way down through bases and members. -/
inductive Walk : Labelled → List ScopeKey → Prop
  | here {x : Labelled} : Walk x x.key.toList
  | down {x y : Labelled} {keys : List ScopeKey} : y ∈ x.parts → Walk y keys →
      Walk x (x.key.toList ++ keys)

/-- The parts are the bases and members of the type, and every definition is that of a scope and has
the key of this scope. -/
inductive Mirrors (c : Configuration) : Labelled → Prop
  | plain {t : CppType} : t.definition = none → Mirrors c { type := t }
  | definition {i : Nat} {o : Record Resolution} {bases : List (Base CppType)}
      {fields : List (Field CppType)} {parts : List Labelled} : c.outline? i = some o →
      parts.map (·.type) = bases.map (·.type) ++ fields.map (·.type) →
      (∀ x ∈ parts, Mirrors c x) →
      Mirrors c ⟨.complete (.ofOutline o bases fields), some (c.keyOf i), parts⟩

theorem walk_of_not_definition {t : CppType} {keys : List ScopeKey}
    (h : Walk { type := t } keys) : keys = [] := by
  cases h with
  | here => rfl
  | down hy _ => exact nomatch hy

theorem Mirrors.complete {c : Configuration} {x : Labelled} (h : x.Mirrors c)
    (hkey : x.key.isSome) : ∃ r, x.type = .complete r := by
  cases h with
  | plain _ => exact nomatch hkey
  | definition _ _ _ => exact ⟨_, rfl⟩

end Labelled

/-! ### Desks that can be met -/

namespace Configuration

/-- How one desk becomes another one: a definition is begun, the construction for a question is gone
through as a whole, or a definition whose parts have been built is finished. -/
inductive Passes (c : Configuration) : Desk → Desk → Prop
  | start {i : Nat} {o : Record Resolution} {desk : Desk} : c.Opens desk i o →
      Passes c desk (desk.start (c.keyOf i))
  | call {q : Query} {x : Labelled} {desk desk' : Desk} : c.Builds (c.resolve q) desk x desk' →
      Passes c desk desk'
  | finish {i : Nat} {o : Record Resolution} {bases fields : List Labelled}
      {desk middle inner : Desk} : c.Opens desk i o →
      c.BuildsEach (o.bases.map (·.type)) (desk.start (c.keyOf i)) bases middle →
      c.BuildsEach (o.fields.map (·.type)) middle fields inner →
      Passes c inner (inner.finish (c.keyOf i) (.ofParts o (c.keyOf i) bases fields))

/-- The desks that can be met, starting with an empty one. -/
def Reachable (c : Configuration) (desk : Desk) : Prop := Relation.ReflTransGen c.Passes {} desk

end Configuration

/-! ### What is inside a finished record was finished before -/

/-- Labels are right, no way down comes twice to one key, and the keys on it are those of finished
records. -/
structure Labelled.Sound (c : Configuration) (desk : Desk) (x : Labelled) : Prop where
  mirrors : x.Mirrors c
  once : ∀ keys, x.Walk keys → keys.Nodup
  inside : ∀ keys, x.Walk keys → ∀ k ∈ keys, (desk.done.lookup k).isSome

/-- Different scopes are under way, and finished records are sound and have their own keys. -/
structure Desk.Sound (c : Configuration) (desk : Desk) : Prop where
  nodup : desk.underway.Nodup
  scopes : desk.underway ⊆ (List.range c.scopes.length).map c.keyOf
  entries : ∀ entry ∈ desk.done, entry.2.key = some entry.1 ∧ entry.2.Sound c desk

namespace Labelled

variable {c : Configuration}

theorem sound_plain (desk : Desk) {t : CppType} (h : t.definition = none) :
    Sound c desk { type := t } where
  mirrors := .plain h
  once := by
    intro keys hwalk
    rw [walk_of_not_definition hwalk]
    exact List.nodup_nil
  inside := by
    intro keys hwalk k hk
    rw [walk_of_not_definition hwalk] at hk
    exact nomatch hk

theorem Sound.mono {desk desk' : Desk} {x : Labelled} (h : x.Sound c desk)
    (hkept : ∀ k y, desk.done.lookup k = some y → desk'.done.lookup k = some y) :
    x.Sound c desk' where
  mirrors := h.mirrors
  once := h.once
  inside := by
    intro keys hwalk k hk
    obtain ⟨y, hy⟩ := Option.isSome_iff_exists.mp (h.inside keys hwalk k hk)
    exact Option.isSome_iff_exists.mpr ⟨y, hkept k y hy⟩

theorem zipWith_types {as : List α} {xs : List Labelled} (h : xs.length = as.length) :
    List.zipWith (fun _ t => t) as (xs.map (·.type)) = xs.map (·.type) := by
  rw [← List.map_uncurry_zip_eq_zipWith]
  have hle : (xs.map (·.type)).length ≤ as.length := by
    rw [List.length_map]
    exact Nat.le_of_eq h
  exact List.map_snd_zip hle

/-- A definition that is finished now is not inside its parts, which were finished before. -/
theorem sound_ofParts {inner : Desk} {i : Nat} {o : Record Resolution} {bases fields : List Labelled}
    (ho : c.outline? i = some o) (hbases : bases.length = o.bases.length)
    (hfields : fields.length = o.fields.length) (hnone : inner.done.lookup (c.keyOf i) = none)
    (hparts : ∀ x ∈ bases ++ fields, x.Sound c inner) :
    (ofParts o (c.keyOf i) bases fields).Sound c
      (inner.finish (c.keyOf i) (ofParts o (c.keyOf i) bases fields)) where
  mirrors := by
    refine .definition ho ?_ fun x hx => (hparts x hx).mirrors
    rw [List.map_append, List.map_zipWith, List.map_zipWith]
    exact congrArg₂ (· ++ ·) (zipWith_types hbases).symm (zipWith_types hfields).symm
  once := by
    intro keys hwalk
    cases hwalk with
    | here => exact List.nodup_singleton _
    | down hy hwalk =>
      -- the key of the definition is not yet finished, and those below are
      refine List.nodup_cons.mpr ⟨fun hk => ?_, (hparts _ hy).once _ hwalk⟩
      have hsome := (hparts _ hy).inside _ hwalk _ hk
      rw [hnone] at hsome
      cases hsome
  inside := by
    have hown : ∀ k ∈ [c.keyOf i], ((inner.finish (c.keyOf i)
        (ofParts o (c.keyOf i) bases fields)).done.lookup k).isSome := by
      intro k hk
      rw [List.mem_singleton.mp hk, Desk.finish, List.lookup_cons_self]
      rfl
    intro keys hwalk k hk
    cases hwalk with
    | here => exact hown k hk
    | down hy hwalk =>
      rcases List.mem_append.mp hk with hk | hk
      · exact hown k hk
      · exact ((hparts _ hy).mono fun k y => Desk.Keeps.done_finish hnone _).inside _ hwalk k hk

end Labelled

namespace Configuration

variable {c : Configuration}

/-- Results are sound on every sound desk that still has what was finished with them. -/
theorem Builds.sound {r : Resolution} {desk desk' later : Desk} {x : Labelled}
    (h : c.Builds r desk x desk') (hplain : r.Plain) (hlater : later.Sound c)
    (hkept : ∀ k y, desk'.done.lookup k = some y → later.done.lookup k = some y) :
    x.Sound c later := by
  have hentry : ∀ {k y}, desk'.done.lookup k = some y → y.Sound c later := by
    intro k y hy
    exact (hlater.entries (k, y) (mem_of_lookup (hkept k y hy))).2
  cases h with
  | known => exact Labelled.sound_plain later (hplain _ rfl)
  | finished hx => exact hentry hx
  | left _ _ => exact Labelled.sound_plain later rfl
  | opened _ _ _ => exact hentry List.lookup_cons_self

theorem BuildsEach.sound {rs : List Resolution} {desk desk' later : Desk} {xs : List Labelled}
    (hplain : ∀ r ∈ rs, r.Plain) (hlater : later.Sound c)
    (hkept : ∀ k y, desk'.done.lookup k = some y → later.done.lookup k = some y) :
    c.BuildsEach rs desk xs desk' → ∀ x ∈ xs, x.Sound c later
  | .nil => fun _ hx => nomatch hx
  | .cons h hs => by
    intro x hx
    rcases List.mem_cons.mp hx with rfl | hx
    · have hkept' := fun k y hy => hkept k y (hs.keeps.done k y hy)
      exact h.sound (hplain _ List.mem_cons_self) hlater hkept'
    · exact hs.sound (fun r hr => hplain r (List.mem_cons_of_mem _ hr)) hlater hkept x hx

end Configuration

namespace Desk.Sound

variable {c : Configuration} {i : Nat} {o : Record Resolution} {desk inner : Desk}

theorem start (h : desk.Sound c) (hopens : c.Opens desk i o) :
    (desk.start (c.keyOf i)).Sound c where
  nodup := List.nodup_cons.mpr ⟨hopens.idle, h.nodup⟩
  scopes := by
    intro k hk
    rcases List.mem_cons.mp hk with rfl | hk
    · have hlt := Configuration.lt_length_of_outline? hopens.body
      exact List.mem_map_of_mem (List.mem_range.mpr hlt)
    · exact h.scopes hk
  entries := by
    intro entry hentry
    obtain ⟨hkey, hsound⟩ := h.entries entry hentry
    exact ⟨hkey, hsound.mono fun _ _ hy => hy⟩

theorem finish {middle : Desk} {bases fields : List Labelled} (hopens : c.Opens desk i o)
    (hbases : c.BuildsEach (o.bases.map (·.type)) (desk.start (c.keyOf i)) bases middle)
    (hfields : c.BuildsEach (o.fields.map (·.type)) middle fields inner) (h : inner.Sound c) :
    (inner.finish (c.keyOf i) (.ofParts o (c.keyOf i) bases fields)).Sound c where
  nodup := h.nodup.filter _
  scopes := fun _ hk => h.scopes (List.mem_of_mem_filter hk)
  entries := by
    have hnone := (hbases.keeps.trans hfields.keeps).unfinished hopens
    -- all bases and members are still finished on the inner desk, which is sound
    obtain ⟨hplainBases, hplainFields⟩ := Configuration.found_of_outline? hopens.body
    have hparts : ∀ x ∈ bases ++ fields, x.Sound c inner := by
      intro x hx
      rcases List.mem_append.mp hx with hx | hx
      · refine hbases.sound (fun r hr => ?_) h hfields.keeps.done x hx
        obtain ⟨b, hb, rfl⟩ := List.mem_map.mp hr
        exact (hplainBases b hb).plain
      · refine hfields.sound (fun r hr => ?_) h (fun _ _ hy => hy) x hx
        obtain ⟨f, hf, rfl⟩ := List.mem_map.mp hr
        exact (hplainFields f hf).plain
    intro entry hentry
    rcases List.mem_cons.mp hentry with rfl | hentry
    · exact ⟨rfl, Labelled.sound_ofParts hopens.body (by simp [hbases.length_eq])
        (by simp [hfields.length_eq]) hnone hparts⟩
    · obtain ⟨hkey, hsound⟩ := h.entries entry hentry
      exact ⟨hkey, hsound.mono fun _ _ => Keeps.done_finish hnone _⟩

end Desk.Sound

namespace Configuration

variable {c : Configuration}

mutual

theorem Builds.desk_sound {r : Resolution} {desk desk' : Desk} {x : Labelled} :
    c.Builds r desk x desk' → desk.Sound c → desk'.Sound c
  | .known, h | .finished _, h | .left _ _, h => h
  | .opened hopens hbases hfields, h =>
    .finish hopens hbases hfields (hfields.desk_sound (hbases.desk_sound (h.start hopens)))

theorem BuildsEach.desk_sound {rs : List Resolution} {desk desk' : Desk} {xs : List Labelled} :
    c.BuildsEach rs desk xs desk' → desk.Sound c → desk'.Sound c
  | .nil, h => h
  | .cons hx hxs, h => hxs.desk_sound (hx.desk_sound h)

end

theorem Passes.desk_sound {desk desk' : Desk} (h : c.Passes desk desk') (hdesk : desk.Sound c) :
    desk'.Sound c := by
  cases h with
  | start hopens => exact hdesk.start hopens
  | call h => exact h.desk_sound hdesk
  | finish hopens hbases hfields => exact hdesk.finish hopens hbases hfields

theorem Reachable.sound {desk : Desk} (h : c.Reachable desk) : desk.Sound c := by
  induction h with
  | refl => exact ⟨List.nodup_nil, List.nil_subset _, fun _ hentry => nomatch hentry⟩
  | tail _ hpass ih => exact hpass.desk_sound ih

theorem Passes.done {desk desk' : Desk} (h : c.Passes desk desk') {k : ScopeKey} {x : Labelled}
    (hx : desk.done.lookup k = some x) : desk'.done.lookup k = some x := by
  cases h with
  | start _ => exact hx
  | call h => exact h.keeps.done k x hx
  | finish hopens hbases hfields =>
    exact Desk.Keeps.done_finish ((hbases.keeps.trans hfields.keeps).unfinished hopens) _ hx

/-- What is remembered on a desk is remembered on all desks that come later. -/
theorem lookup_memo_of_passes {desk later : Desk} (h : Relation.ReflTransGen c.Passes desk later)
    {k : ScopeKey} {t : CppType} (ht : desk.memo.lookup k = some t) :
    later.memo.lookup k = some t := by
  induction h with
  | refl => exact ht
  | tail _ hpass ih =>
    rw [Desk.lookup_memo] at ih ⊢
    obtain ⟨x, hx, rfl⟩ := Option.map_eq_some_iff.mp ih
    rw [hpass.done hx]
    rfl

/-! ### Every construction ends -/

/-- What the construction of `r` comes to: it ends in this way only, and what is computed with
enough levels is the same; the same definitions are under way as before, all types in the memory are
complete, and no way down through the result comes twice to the same key. -/
structure Delivers (c : Configuration) (r : Resolution) (desk : Desk) (x : Labelled)
    (desk' : Desk) : Prop where
  builds : c.Builds r desk x desk'
  unique : ∀ y d, c.Builds r desk y d → y = x ∧ d = desk'
  computed : ∀ levels, c.scopes.length < levels + desk.underway.length →
    c.typeWithin levels desk.underway r desk.memo = (x.type, desk'.memo)
  answered : desk.underway = [] → c.typeOf r desk.memo = (x.type, desk'.memo)
  underway : desk'.underway = desk.underway
  complete : ∀ entry ∈ desk'.memo, ∃ record, entry.2 = .complete record
  mirrors : x.Mirrors c
  once : ∀ keys, x.Walk keys → keys.Nodup

theorem exists_delivers {desk : Desk} (hdesk : desk.Sound c) {r : Resolution} (hplain : r.Plain) :
    ∃ x desk', c.Delivers r desk x desk' := by
  have hroom : ∀ {levels}, c.scopes.length < levels + desk.underway.length →
      c.Room levels desk.underway := fun hlevels => ⟨hdesk.nodup, hdesk.scopes, hlevels⟩
  have henough : c.scopes.length < c.scopes.length + 1 + desk.underway.length := by omega
  obtain ⟨x, desk', hbuilds, _⟩ := exists_builds (hroom henough) r
  -- with other numbers of levels there is a construction too, and it is the same
  have hcomputed : ∀ levels, c.scopes.length < levels + desk.underway.length →
      c.typeWithin levels desk.underway r desk.memo = (x.type, desk'.memo) := by
    intro levels hlevels
    obtain ⟨y, d, hy, hcomputed⟩ := exists_builds (hroom hlevels) r
    obtain ⟨rfl, rfl⟩ := hbuilds.unique hy
    exact hcomputed
  have hdesk' := hbuilds.desk_sound hdesk
  have hsound := hbuilds.sound hplain hdesk' fun _ _ hy => hy
  refine ⟨x, desk',
    { builds := hbuilds
      unique := fun y d hy => hy.unique hbuilds
      computed := hcomputed
      answered := ?_
      underway := hbuilds.keeps.underway
      complete := ?_
      mirrors := hsound.mirrors
      once := hsound.once }⟩
  · intro hidle
    rw [← typeWithin_nil, ← hidle]
    exact hcomputed _ henough
  · intro entry hentry
    obtain ⟨⟨k, y⟩, hy, rfl⟩ := List.mem_map.mp hentry
    obtain ⟨hkey, hsound⟩ := hdesk'.entries _ hy
    exact hsound.mirrors.complete (by rw [hkey]; rfl)

/-- **Construction ends, whatever the records contain.**  If no scope is nested in itself and the
links of parentheses lead forward, no loop is cut; and on every desk that can be met every question
is answered, and what is remembered there stays. -/
theorem construction_ends (hnested : c.NestingAcyclic) (hlinks : Token.LinksForward c.tokens) :
    (∀ outer, c.EnclosedBy outer (c.enclosingNames c.scopes.length outer)) ∧
      (∀ name, Specifiers.read? c.tokens name = some (Specifiers.ofFunction c.tokens name)) ∧
      ∀ desk, c.Reachable desk →
        (∀ q : Query, ∃ x desk', c.Delivers (c.resolve q) desk x desk') ∧
          ∀ later, Relation.ReflTransGen c.Passes desk later →
            ∀ k t, desk.memo.lookup k = some t → later.memo.lookup k = some t := by
  refine ⟨enclosedBy_enclosingNames hnested, Specifiers.read?_eq_some hlinks, ?_⟩
  intro desk hdesk
  constructor
  · intro q
    exact exists_delivers hdesk.sound (c.plain_resolve q)
  · intro later hpasses k t ht
    exact lookup_memo_of_passes hpasses ht

/-- `namespace N { struct S { S(S&&) noexcept(true); struct T { S s; }; T t; S u; }; }`, with the
scopes of `N`, `S` and `T` in this order. -/
def circularSample : Configuration where
  tokens := [
    { text := "namespace" }, { text := "N" }, { text := "\x7b" },
    { text := "struct" }, { text := "S" }, { text := "\x7b" },
    { text := "S" }, { text := "(", link := some 10 }, { text := "S" }, { text := "&&" },
    { text := ")", link := some 7 }, { text := "noexcept" }, { text := "(", link := some 14 },
    { text := "true" }, { text := ")", link := some 12 }, { text := ";" },
    { text := "struct" }, { text := "T" }, { text := "\x7b" }, { text := "S" },
    { text := "s", valueType := some { type := "record", scope := some 1 } }, { text := ";" },
    { text := "\x7d" }, { text := ";" }, { text := "T" },
    { text := "t", valueType := some { type := "record", scope := some 2 } }, { text := ";" },
    { text := "S" }, { text := "u", valueType := some { type := "record", scope := some 1 } },
    { text := ";" }, { text := "\x7d" }, { text := ";" }, { text := "\x7d" }]
  scopes := [
    { kind := .nameSpace, className := "N", id := some "1", bodyStart := some 2 },
    { kind := .record, className := "S", id := some "2", bodyStart := some 5, nestedIn := some 0
      members := [
        { nameToken := some 25, typeStart := some 24, typeEnd := some 24 },
        { nameToken := some 28, typeStart := some 27, typeEnd := some 27 }]
      functions := [{ kind := .moveConstructor, nameToken := some 6 }] },
    { kind := .record, className := "T", id := some "3", bodyStart := some 18, nestedIn := some 1
      members := [{ nameToken := some 20, typeStart := some 19, typeEnd := some 19 }] }]

/-- `S` and `T` contain each other and `S` contains itself.  Both are built for the first question;
inside `S` the same question is answered for `T` while `S` is under way. -/
theorem construction_ends_sample :
    circularSample.NestingAcyclic ∧ Token.LinksForward circularSample.tokens ∧
      circularSample.mentioned 1 = [2, 1] ∧ circularSample.mentioned 2 = [1] ∧
      circularSample.Reachable (Desk.start {} (.named "2")) ∧
      (∃ x desk', circularSample.Delivers (.record 1) {} x desk' ∧
        desk'.memo.map (·.1) = [.named "2", .named "3"]) ∧
      ∃ x desk', circularSample.Delivers (.record 2) (Desk.start {} (.named "2")) x desk' ∧
        desk'.memo.map (·.1) = [.named "3"] := by
  have hnested : circularSample.NestingAcyclic := nestingAcyclic_of_rank (fun i => i) (by decide)
  have hlinks : Token.LinksForward circularSample.tokens := by decide
  obtain ⟨-, -, hends⟩ := construction_ends hnested hlinks
  have hinside : circularSample.Reachable (Desk.start {} (.named "2")) := by
    obtain ⟨o, ho⟩ : ∃ o, circularSample.outline? 1 = some o :=
      Option.isSome_iff_exists.mp (by decide)
    exact .single (.start ⟨rfl, List.not_mem_nil, ho⟩)
  refine ⟨hnested, hlinks, by decide, by decide, hinside, ?_, ?_⟩
  · obtain ⟨x, desk', h⟩ := (hends {} .refl).1 (.record 1)
    have hmemo : (circularSample.recordType 1 []).2 = desk'.memo :=
      congrArg Prod.snd (h.answered rfl)
    refine ⟨x, desk', h, ?_⟩
    rw [← hmemo]
    decide +kernel
  · obtain ⟨x, desk', h⟩ := (hends _ hinside).1 (.record 2)
    have hmemo : (circularSample.recordWithin 3 [.named "2"] 2 []).2 = desk'.memo :=
      congrArg Prod.snd (h.computed 3 (by decide))
    refine ⟨x, desk', h, ?_⟩
    rw [← hmemo]
    decide +kernel

end Configuration

end GrowthAudit
