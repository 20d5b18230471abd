import GrowthAudit.Proofs.Dump.DeclaredMembers
import GrowthAudit.Proofs.Dump.FirstUses
import GrowthAudit.Proofs.Dump.Settled

/-!
# Trivial copies

A record says of itself whether it is trivially copyable, and whoever looks at it believes it.  The
answer is computed when the record is built, from its functions and from what its bases and members
say of themselves at that time.  Records are remembered and used again, also while others are under
way, so it has to be shown that all these answers fit together.

* `Configuration.Grounded`: a type that was built from the bodies of scopes all the way down.
* `Configuration.Session`: what may be remembered, whatever was asked before.
* `Configuration.Session.grounded`: everything that is remembered is grounded.  One run keeps this
  (`Configuration.grounded_rule`), and so does every session, by induction.
* `Configuration.CopiesTrivially`: why a type is trivially copyable, all the way down.
* `Configuration.copiesTrivially_of_answer`: **every record inside an answer that calls itself
  trivially copyable is so all the way down**, and nothing incomplete is inside its bases and own
  members.
-/

namespace GrowthAudit

/-! ### What is inside a type -/

/-- A definition has a type as that of a base or of any member. -/
def CppType.Mentions (t u : CppType) : Prop :=
  ∃ r, t.definition = some r ∧ ((∃ b ∈ r.bases, b.type = u) ∨ ∃ f ∈ r.fields, f.type = u)

/-- A definition has a type as that of a base or of an own member. -/
def CppType.Contains (t u : CppType) : Prop :=
  ∃ r, t.definition = some r ∧
    ((∃ b ∈ r.bases, b.type = u) ∨ ∃ f ∈ r.fields, f.isOwn = true ∧ f.type = u)

namespace Configuration

variable {c : Configuration}

/-! ### Types that were built -/

/-- A definition is the one in the body of a scope, with types for the bases and members that stand
there. -/
structure BuiltFrom (c : Configuration) (i : Nat) (r : Record CppType) : Prop where
  exists_outline : ∃ o, c.outline? i = some o ∧ r = .ofOutline o r.bases r.fields ∧
    List.Forall₂ (fun b b' => b' = b.withType b'.type) o.bases r.bases ∧
    List.Forall₂ (fun f f' => f' = f.withType f'.type) o.fields r.fields

/-- A type whose definition, if it has one, was built from the body of a scope, and so were those of
all its bases and members. -/
inductive Grounded (c : Configuration) : CppType → Prop
  | plain {t : CppType} : t.definition = none → Grounded c t
  | built {i : Nat} {r : Record CppType} : c.BuiltFrom i r →
      (∀ b ∈ r.bases, Grounded c b.type) → (∀ f ∈ r.fields, Grounded c f.type) →
      Grounded c (.complete r)

theorem Grounded.of_mentions {t u : CppType} (h : c.Grounded t) (hu : t.Mentions u) :
    c.Grounded u := by
  obtain ⟨r, hr, hu⟩ := hu
  cases h with
  | plain hnone => cases hr.symm.trans hnone
  | built _ hbases hfields =>
    cases hr
    rcases hu with ⟨b, hb, rfl⟩ | ⟨f, hf, rfl⟩
    · exact hbases b hb
    · exact hfields f hf

theorem Grounded.of_reachable {t u : CppType} (h : c.Grounded t)
    (hu : Relation.ReflTransGen CppType.Mentions t u) : c.Grounded u := by
  induction hu with
  | refl => exact h
  | tail _ hstep ih => exact ih.of_mentions hstep

/-- Everything that is remembered is grounded. -/
def GroundedMemo (c : Configuration) (memo : Memo) : Prop :=
  ∀ k t, memo.lookup k = some t → c.Grounded t

theorem GroundedMemo.cons {memo : Memo} {k : ScopeKey} {t : CppType} (h : c.GroundedMemo memo)
    (ht : c.Grounded t) : c.GroundedMemo ((k, t) :: memo) :=
  forall_lookup_cons h ht

/-- A run keeps what is remembered grounded and gives a grounded type. -/
def Grounds (c : Configuration) (_path : List ScopeKey) (_i : Nat) (memo : Memo) (t : CppType)
    (memo' : Memo) : Prop :=
  c.GroundedMemo memo → c.GroundedMemo memo' ∧ c.Grounded t

theorem Grounds.of_run {path : List ScopeKey} {r : Resolution} {t : CppType} {memo memo' : Memo}
    (hplain : r.Plain) (hrun : r.Run (c.Grounds path) memo t memo') (hmemo : c.GroundedMemo memo) :
    c.GroundedMemo memo' ∧ c.Grounded t := by
  cases hrun with
  | known => exact ⟨hmemo, .plain (hplain t rfl)⟩
  | record hrun => exact hrun hmemo

/-- A definition is grounded as soon as its bases and members are. -/
theorem grounded_ofOutline {i : Nat} {o : Record Resolution} {bases : List (Base CppType)}
    {fields : List (Field CppType)} (ho : c.outline? i = some o)
    (hbases : List.Forall₂ (fun b b' => b' = b.withType b'.type ∧ c.Grounded b'.type) o.bases bases)
    (hfields :
      List.Forall₂ (fun f f' => f' = f.withType f'.type ∧ c.Grounded f'.type) o.fields fields) :
    c.Grounded (.complete (.ofOutline o bases fields)) := by
  refine .built (i := i) ⟨o, ho, rfl, hbases.imp fun _ _ h => h.1, hfields.imp fun _ _ h => h.1⟩
    ?_ ?_
  · intro b hb
    obtain ⟨_, -, -, h⟩ := exists_of_mem_forall₂ hbases hb
    exact h
  · intro f hf
    obtain ⟨_, -, -, h⟩ := exists_of_mem_forall₂ hfields hf
    exact h

theorem grounded_rule (c : Configuration) : c.RunRule c.Grounds where
  remembered := fun _ i _ t ht hmemo => ⟨hmemo, hmemo (c.keyOf i) t ht⟩
  met := fun _ _ _ _ _ hmemo => ⟨hmemo, .plain rfl⟩
  bodiless := fun _ _ _ _ _ hmemo => ⟨hmemo, .plain rfl⟩
  built := by
    intro path i memo o bases memo' fields memo'' _ _ ho hbases hfields hmemo
    obtain ⟨hfoundBases, hfoundFields⟩ := found_of_outline? ho
    obtain ⟨hmemo', hbases⟩ := hbases.invariant (I := c.GroundedMemo)
      (Q := fun b b' => b' = b.withType b'.type ∧ c.Grounded b'.type) (by
        rintro b hb m _ m' ⟨hrun⟩ hm
        obtain ⟨hm', ht⟩ := Grounds.of_run (hfoundBases b hb).plain hrun hm
        exact ⟨hm', rfl, ht⟩) hmemo
    obtain ⟨hmemo'', hfields⟩ := hfields.invariant (I := c.GroundedMemo)
      (Q := fun f f' => f' = f.withType f'.type ∧ c.Grounded f'.type) (by
        rintro f hf m _ m' ⟨hrun⟩ hm
        obtain ⟨hm', ht⟩ := Grounds.of_run (hfoundFields f hf).plain hrun hm
        exact ⟨hm', rfl, ht⟩) hmemo'
    have ht := grounded_ofOutline ho hbases hfields
    exact ⟨hmemo''.cons ht, ht⟩

theorem typeOf_grounded {r : Resolution} (hplain : r.Plain) {memo : Memo}
    (hmemo : c.GroundedMemo memo) :
    c.GroundedMemo (c.typeOf r memo).2 ∧ c.Grounded (c.typeOf r memo).1 :=
  Grounds.of_run hplain (typeOf_run c.grounded_rule r memo) hmemo

theorem containerSites_grounded (containers : List String) {memo : Memo}
    (hmemo : c.GroundedMemo memo) :
    c.GroundedMemo (c.containerSites containers memo).2 ∧
      ∀ site ∈ (c.containerSites containers memo).1, c.Grounded site.element := by
  have hthread : Memo.Thread c.SiteRun (ContainerUse.all c.tokens containers) memo
      (c.containerSites containers memo).1 (c.containerSites containers memo).2 :=
    .of_traverse (fun _ _ => .mk) _ _
  obtain ⟨hmemo', hsites⟩ := hthread.invariant (I := c.GroundedMemo)
    (Q := fun _ site => c.Grounded site.element)
    (by
      rintro u - m _ m' ⟨⟩ hm
      exact typeOf_grounded (c.found_lookupTokens u.element).plain hm) hmemo
  refine ⟨hmemo', fun site hsite => ?_⟩
  obtain ⟨_, -, h⟩ := exists_of_mem_forall₂ hsites hsite
  exact h

/-! ### Sessions -/

/-- What is remembered after questions and searches for containers, in any number and order. -/
inductive Session (c : Configuration) : Memo → Prop
  | start : Session c []
  | ask {memo : Memo} (q : Query) : Session c memo → Session c (c.typeOf (c.resolve q) memo).2
  | search {memo : Memo} (containers : List String) : Session c memo →
      Session c (c.containerSites containers memo).2

/-- A type is an answer to a question or the type of an element that a search finds. -/
inductive AnswersWith (c : Configuration) (memo : Memo) : CppType → Prop
  | ask (q : Query) : AnswersWith c memo (c.typeOf (c.resolve q) memo).1
  | search (containers : List String) {site : ContainerSite} :
      site ∈ (c.containerSites containers memo).1 → AnswersWith c memo site.element

/-- **Everything that is remembered in a session was built from the bodies of scopes.** -/
theorem Session.grounded {memo : Memo} (h : c.Session memo) : c.GroundedMemo memo := by
  induction h with
  | start => exact nofun
  | ask q _ ih => exact (typeOf_grounded (c.plain_resolve q) ih).1
  | search containers _ ih => exact (containerSites_grounded containers ih).1

theorem AnswersWith.grounded {memo : Memo} {t : CppType} (h : c.AnswersWith memo t)
    (hmemo : c.Session memo) : c.Grounded t := by
  cases h with
  | ask q => exact (typeOf_grounded (c.plain_resolve q) hmemo.grounded).2
  | search containers hsite =>
    exact (containerSites_grounded containers hmemo.grounded).2 _ hsite

/-! ### Copies that are trivial all the way down -/

/-- Why a type is trivially copyable.  A scalar is.  A record is if it was built from a scope that
declares no virtual function and no special member that is more than defaulted, calls itself
trivially copyable, has no virtual base, and its bases and own members are trivially copyable for
such reasons too.  The special members are the copy and move constructors, the destructor and the
assignments, for all of which, whatever they take, a dump has the one kind `assignment`. -/
inductive CopiesTrivially (c : Configuration) : CppType → Prop
  | scalar {t : CppType} : t.isScalar = true → t.definition = none → CopiesTrivially c t
  | record {i : Nat} {s : Scope} {r : Record CppType} : c.scope? i = some s → c.BuiltFrom i r →
      r.isTrivial = true → (∀ f ∈ s.functions, f.isVirtual = false) →
      (∀ f ∈ s.functions, f.kind = .copyConstructor ∨ f.kind = .moveConstructor ∨
        f.kind = .assignment ∨ f.kind = .destructor → c.Defaults f) →
      (∀ b ∈ r.bases, b.isVirtual = false) → (∀ b ∈ r.bases, CopiesTrivially c b.type) →
      (∀ f ∈ r.fields, f.isOwn = true → CopiesTrivially c f.type) →
      CopiesTrivially c (.complete r)

namespace CopiesTrivially

theorem isComplete {t : CppType} (h : c.CopiesTrivially t) : t.isComplete = true := by
  cases h with
  | scalar hscalar _ => rw [CppType.isComplete, hscalar, Bool.true_or]
  | record => rfl

theorem of_contains {t u : CppType} (h : c.CopiesTrivially t) (hu : t.Contains u) :
    c.CopiesTrivially u := by
  obtain ⟨r, hr, hu⟩ := hu
  cases h with
  | scalar _ hnone => cases hr.symm.trans hnone
  | record _ _ _ _ _ _ hbases hfields =>
    cases hr
    rcases hu with ⟨b, hb, rfl⟩ | ⟨f, hf, hown, rfl⟩
    · exact hbases b hb
    · exact hfields f hf hown

theorem of_reachable {t u : CppType} (h : c.CopiesTrivially t)
    (hu : Relation.ReflTransGen CppType.Contains t u) : c.CopiesTrivially u := by
  induction hu with
  | refl => exact h
  | tail _ hstep ih => exact ih.of_contains hstep

end CopiesTrivially

/-- A definition that was built and calls itself trivially copyable comes from a scope whose
functions allow it. -/
theorem BuiltFrom.exists_scope {i : Nat} {r : Record CppType} (h : c.BuiltFrom i r)
    (htrivial : r.isTrivial = true) :
    ∃ s, c.scope? i = some s ∧ c.functionsAreTrivial s = true ∧
      Record.partsAreTrivial r.bases r.fields = true := by
  obtain ⟨o, ho, hr, -, -⟩ := h.exists_outline
  obtain ⟨s, body, hs, -, rfl⟩ := outline?_eq_some_iff.mp ho
  rw [hr] at htrivial
  obtain ⟨hfunctions, hparts⟩ := Bool.and_eq_true_iff.mp htrivial
  exact ⟨s, hs, hfunctions, hparts⟩

/-- What a built record says of itself is true all the way down. -/
theorem Grounded.copiesTrivially {t : CppType} (h : c.Grounded t) (htrivial : t.isTrivial = true) :
    c.CopiesTrivially t := by
  induction h with
  | @plain t hnone =>
    have hscalar : t.isScalar = true := by simpa [CppType.isTrivial, hnone] using htrivial
    exact .scalar hscalar hnone
  | @built i r hbuilt _ _ ihbases ihfields =>
    have htrivial : r.isTrivial = true := htrivial
    obtain ⟨s, hs, hfunctions, hparts⟩ := hbuilt.exists_scope htrivial
    have hfunctions := functionsAreTrivial_iff.mp hfunctions
    obtain ⟨hbases, hfields⟩ := Record.partsAreTrivial_eq_true_iff.mp hparts
    exact .record hs hbuilt htrivial (fun f hf => (hfunctions f hf).1)
      (fun f hf => (hfunctions f hf).2) (fun b hb => (hbases b hb).1)
      (fun b hb => ihbases b hb (hbases b hb).2)
      fun f hf hown => ihfields f hf (hfields f hf hown)

/-- **A record that calls itself trivially copyable is so all the way down.**  In every session,
with records that contain or mention each other too, this holds of every record inside an answer,
static members included; and everything inside its bases and own members is complete and trivially
copyable for such reasons. -/
theorem copiesTrivially_of_answer {memo : Memo} (hmemo : c.Session memo) {t u : CppType}
    (ht : c.AnswersWith memo t) (hu : Relation.ReflTransGen CppType.Mentions t u)
    {r : Record CppType} (hr : u.definition = some r) (htrivial : r.isTrivial = true) :
    c.CopiesTrivially u ∧ u = .complete r ∧
      ∀ v, Relation.ReflTransGen CppType.Contains u v →
        c.CopiesTrivially v ∧ v.isComplete = true := by
  have hgrounded : c.Grounded u := (ht.grounded hmemo).of_reachable hu
  cases hgrounded with
  | plain hnone => cases hr.symm.trans hnone
  | @built i r' hbuilt hbases hfields =>
    cases hr
    have hcopies := (Grounded.built hbuilt hbases hfields).copiesTrivially htrivial
    refine ⟨hcopies, rfl, fun v hv => ?_⟩
    have hv := hcopies.of_reachable hv
    exact ⟨hv, hv.isComplete⟩

/-- `struct B; struct A { static B b; int x; A(const A&) = default; };`
`struct B : A { A a; int* p; };` The scopes are those of `A` and `B`. -/
def sharedSample : Configuration where
  tokens := [
    { text := "struct" }, { text := "B" }, { text := ";" },
    { text := "struct" }, { text := "A" }, { text := "\x7b" }, { text := "static" },
    { text := "B" }, { text := "b" }, { text := ";" }, { text := "int" }, { text := "x" },
    { text := ";" }, { text := "A" }, { text := "(" }, { text := "const" }, { text := "A" },
    { text := "&" }, { text := ")" }, { text := "=" }, { text := "default" }, { text := ";" },
    { text := "\x7d" }, { text := ";" },
    { text := "struct" }, { text := "B" }, { text := ":" }, { text := "A" }, { text := "\x7b" },
    { text := "A" }, { text := "a" }, { text := ";" }, { text := "int" }, { text := "*" },
    { text := "p" }, { text := ";" }, { text := "\x7d" }, { text := ";" }]
  scopes := [
    { kind := .record, className := "A", id := some "1", bodyStart := some 5
      members := [
        { nameToken := some 8, typeStart := some 6, typeEnd := some 7, isStatic := true },
        { nameToken := some 11, typeStart := some 10, typeEnd := some 10 }]
      functions := [{ kind := .copyConstructor, nameToken := some 13 }] },
    { kind := .record, className := "B", id := some "2", bodyStart := some 28
      members := [
        { nameToken := some 30, typeStart := some 29, typeEnd := some 29 },
        { nameToken := some 34, typeStart := some 32, typeEnd := some 33, isPointer := true }] }]

/-- `A` and `B` are built inside one another.  `B` is trivially copyable, and the incomplete `B`
that is inside its base `A` is the type of a static member. -/
theorem copiesTrivially_of_answer_sample :
    ∃ memo t r, sharedSample.Session memo ∧ sharedSample.AnswersWith memo t ∧
      Relation.ReflTransGen CppType.Mentions t t ∧ t.definition = some r ∧ r.isTrivial = true ∧
      sharedSample.CopiesTrivially t ∧ t = .complete r ∧
      (∀ v, Relation.ReflTransGen CppType.Contains t v →
        sharedSample.CopiesTrivially v ∧ v.isComplete = true) ∧
      (r.bases.map (·.type)).head?.bind (fun a => a.definition.map fun ra =>
        ra.fields.map fun f => (f.isOwn, f.type.isComplete)) =
          some [(false, false), (true, true)] := by
  have hsession : sharedSample.Session (sharedSample.typeOf (.record 1) []).2 :=
    .ask (.record 1) .start
  have hanswer : sharedSample.AnswersWith (sharedSample.typeOf (.record 1) []).2
      (sharedSample.typeOf (sharedSample.resolve (.name "B"))
        (sharedSample.typeOf (.record 1) []).2).1 := .ask (.name "B")
  have hread : (sharedSample.typeOf (sharedSample.resolve (.name "B"))
      (sharedSample.typeOf (.record 1) []).2).1.definition.map (fun r => (r.isTrivial,
        (r.bases.map (·.type)).head?.bind fun a => a.definition.map fun ra =>
          ra.fields.map fun f => (f.isOwn, f.type.isComplete))) =
            some (true, some [(false, false), (true, true)]) := by decide +kernel
  obtain ⟨r, hr, hvalues⟩ := Option.map_eq_some_iff.mp hread
  obtain ⟨htrivial, hinside⟩ := Prod.mk.inj hvalues
  obtain ⟨hcopies, hcomplete, hall⟩ :=
    copiesTrivially_of_answer hsession hanswer .refl hr htrivial
  exact ⟨_, _, r, hsession, hanswer, .refl, hr, htrivial, hcopies, hcomplete, hall, hinside⟩

end Configuration

end GrowthAudit
