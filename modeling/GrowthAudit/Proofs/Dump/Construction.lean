import GrowthAudit.Proofs.Dump.Building

/-!
# Construction without bounds

`Configuration.recordWithin` is handed the keys of the definitions around it and a number of levels
that it may go down.  This file describes the same construction without a bound, as something that
works on a `Desk`: there lie the keys of the definitions that are under way and the records that are
finished.

* `Configuration.Builds`: the construction of what a resolution means starts on a desk and comes to
  an end, with a type, on another one.  There is no such thing for a construction that goes on for
  ever.
* `Desk.Keeps`: what a construction leaves as it was.  In particular, a key that is under way is not
  finished by anything that is built meanwhile.
* `Configuration.Builds.unique`: there is one way only in which a construction ends.
* `Configuration.exists_builds`: there is one where there is room, and `recordWithin` computes what
  it comes to.
-/

namespace GrowthAudit

/-! ### Types with the keys of their definitions -/

/-- A type together with how it was built.  A definition has the key of its scope, and its parts are
its bases and its members; a type without a definition has neither. -/
structure Labelled where
  type : CppType
  key : Option ScopeKey := none
  parts : List Labelled := []

namespace Labelled

/-- The definition under a key that is made of the given bases and members. -/
def ofParts (o : Record Resolution) (key : ScopeKey) (bases fields : List Labelled) : Labelled where
  type := .complete (.ofOutline o (List.zipWith Base.withType o.bases (bases.map (·.type)))
    (List.zipWith Field.withType o.fields (fields.map (·.type))))
  key := some key
  parts := bases ++ fields

end Labelled

/-! ### The desk -/

/-- What construction works on: the keys of the definitions that are under way, and the records that
are finished. -/
structure Desk where
  underway : List ScopeKey := []
  done : List (ScopeKey × Labelled) := []

namespace Desk

/-- The types of the finished records. -/
def memo (desk : Desk) : Memo := desk.done.map fun entry => (entry.1, entry.2.type)

def start (desk : Desk) (key : ScopeKey) : Desk := { desk with underway := key :: desk.underway }

def finish (desk : Desk) (key : ScopeKey) (x : Labelled) : Desk where
  underway := desk.underway.filter (· ≠ key)
  done := (key, x) :: desk.done

theorem lookup_memo (desk : Desk) (k : ScopeKey) :
    desk.memo.lookup k = (desk.done.lookup k).map (·.type) := by
  rw [memo]
  induction desk.done with
  | nil => rfl
  | cons entry done ih =>
    rw [List.map_cons, List.lookup_cons, List.lookup_cons]
    cases k == entry.1 with
    | true => rfl
    | false => exact ih

theorem lookup_memo_eq_none {desk : Desk} {k : ScopeKey} :
    desk.memo.lookup k = none ↔ desk.done.lookup k = none := by
  rw [lookup_memo, Option.map_eq_none_iff]

end Desk

namespace Configuration

/-- The definition of a scope is to be built now: it is there, not finished and not under way. -/
structure Opens (c : Configuration) (desk : Desk) (i : Nat) (o : Record Resolution) : Prop where
  unfinished : desk.done.lookup (c.keyOf i) = none
  idle : c.keyOf i ∉ desk.underway
  body : c.outline? i = some o

theorem Opens.not_left {c : Configuration} {desk : Desk} {i : Nat} {o : Record Resolution}
    (h : c.Opens desk i o) : ¬ (c.keyOf i ∈ desk.underway ∨ c.outline? i = none) := by
  rintro (hmet | hbody)
  · exact h.idle hmet
  · cases hbody.symm.trans h.body

mutual

/-- The construction of what a resolution means starts on one desk and ends on another one.  A
record that is finished is handed out, one that is under way or has no body is left incomplete, and
any other one is opened: its bases and then its members are built while it is under way. -/
inductive Builds (c : Configuration) : Resolution → Desk → Labelled → Desk → Prop
  | known {t : CppType} {desk : Desk} : Builds c (.known t) desk { type := t } desk
  | finished {i : Nat} {x : Labelled} {desk : Desk} : desk.done.lookup (c.keyOf i) = some x →
      Builds c (.record i) desk x desk
  | left {i : Nat} {desk : Desk} : desk.done.lookup (c.keyOf i) = none →
      c.keyOf i ∈ desk.underway ∨ c.outline? i = none →
      Builds c (.record i) desk { type := .incomplete (c.qualifiedName i) } desk
  | opened {i : Nat} {o : Record Resolution} {bases fields : List Labelled}
      {desk middle inner : Desk} : c.Opens desk i o →
      BuildsEach c (o.bases.map (·.type)) (desk.start (c.keyOf i)) bases middle →
      BuildsEach c (o.fields.map (·.type)) middle fields inner →
      Builds c (.record i) desk (.ofParts o (c.keyOf i) bases fields)
        (inner.finish (c.keyOf i) (.ofParts o (c.keyOf i) bases fields))

/-- Constructions one after the other. -/
inductive BuildsEach (c : Configuration) :
    List Resolution → Desk → List Labelled → Desk → Prop
  | nil {desk : Desk} : BuildsEach c [] desk [] desk
  | cons {r : Resolution} {rs : List Resolution} {x : Labelled} {xs : List Labelled}
      {desk desk' desk'' : Desk} : Builds c r desk x desk' → BuildsEach c rs desk' xs desk'' →
      BuildsEach c (r :: rs) desk (x :: xs) desk''

end

end Configuration

/-! ### What a construction leaves as it was -/

/-- The same definitions are under way, what was finished still is, and what is under way has not
been finished meanwhile. -/
structure Desk.Keeps (desk desk' : Desk) : Prop where
  underway : desk'.underway = desk.underway
  done : ∀ k x, desk.done.lookup k = some x → desk'.done.lookup k = some x
  waiting : ∀ k ∈ desk.underway, desk'.done.lookup k = desk.done.lookup k

namespace Desk.Keeps

theorem refl (desk : Desk) : desk.Keeps desk := ⟨rfl, fun _ _ h => h, fun _ _ => rfl⟩

theorem trans {desk desk' desk'' : Desk} (h : desk.Keeps desk') (h' : desk'.Keeps desk'') :
    desk.Keeps desk'' where
  underway := h'.underway.trans h.underway
  done := fun k x hx => h'.done k x (h.done k x hx)
  waiting := by
    intro k hk
    rw [h'.waiting k (by rw [h.underway]; exact hk), h.waiting k hk]

variable {c : Configuration} {i : Nat} {o : Record Resolution} {desk inner : Desk}

/-- While a definition is under way it is not finished. -/
theorem unfinished (hopens : c.Opens desk i o) (h : (desk.start (c.keyOf i)).Keeps inner) :
    inner.done.lookup (c.keyOf i) = none := by
  rw [h.waiting _ List.mem_cons_self]
  exact hopens.unfinished

theorem lookup_finish {k key : ScopeKey} {x : Labelled} (hne : k ≠ key) :
    (inner.finish key x).done.lookup k = inner.done.lookup k := by
  rw [finish, lookup_cons_eq_ite, if_neg hne]

/-- What was finished before a definition is still there when that one is. -/
theorem done_finish {key : ScopeKey} (hnone : inner.done.lookup key = none) (x : Labelled)
    {k : ScopeKey} {y : Labelled} (hy : inner.done.lookup k = some y) :
    (inner.finish key x).done.lookup k = some y := by
  have hne : k ≠ key := by
    rintro rfl
    cases hnone.symm.trans hy
  rw [lookup_finish hne, hy]

theorem finish (hopens : c.Opens desk i o) (h : (desk.start (c.keyOf i)).Keeps inner)
    (x : Labelled) : desk.Keeps (inner.finish (c.keyOf i) x) where
  underway := by
    rw [Desk.finish, h.underway, start, List.filter_cons_of_neg (by simp)]
    refine List.filter_eq_self.mpr fun k hk => decide_eq_true ?_
    rintro rfl
    exact hopens.idle hk
  done := fun k y hy => done_finish (h.unfinished hopens) x (h.done k y hy)
  waiting := by
    intro k hk
    have hne : k ≠ c.keyOf i := by
      rintro rfl
      exact hopens.idle hk
    rw [lookup_finish hne, h.waiting k (List.mem_cons_of_mem _ hk)]
    rfl

end Desk.Keeps

namespace Configuration

variable {c : Configuration}

mutual

theorem Builds.keeps {r : Resolution} {desk desk' : Desk} {x : Labelled} :
    c.Builds r desk x desk' → desk.Keeps desk'
  | .known | .finished _ | .left _ _ => .refl _
  | .opened hopens hbases hfields => .finish hopens (hbases.keeps.trans hfields.keeps) _

theorem BuildsEach.keeps {rs : List Resolution} {desk desk' : Desk} {xs : List Labelled} :
    c.BuildsEach rs desk xs desk' → desk.Keeps desk'
  | .nil => .refl _
  | .cons h hs => h.keeps.trans hs.keeps

end

theorem BuildsEach.length_eq {rs : List Resolution} {desk desk' : Desk} {xs : List Labelled} :
    c.BuildsEach rs desk xs desk' → xs.length = rs.length
  | .nil => rfl
  | .cons _ hs => congrArg (· + 1) hs.length_eq

/-! ### There is one way only -/

/-- A construction ends in one way only. -/
theorem Builds.unique {r : Resolution} {desk d e : Desk} {x y : Labelled}
    (h : c.Builds r desk x d) (h' : c.Builds r desk y e) : x = y ∧ d = e := by
  induction h using Builds.rec
    (motive_2 := fun rs desk xs d _ => ∀ ys e, c.BuildsEach rs desk ys e → xs = ys ∧ d = e)
    generalizing y e with
  | known =>
    cases h'
    exact ⟨rfl, rfl⟩
  | finished hx =>
    cases h' with
    | finished hy => exact ⟨Option.some.inj (hx.symm.trans hy), rfl⟩
    | left hnone _ => cases hx.symm.trans hnone
    | opened hopens _ _ => cases hx.symm.trans hopens.unfinished
  | left hnone hcut =>
    cases h' with
    | finished hy => cases hy.symm.trans hnone
    | left _ _ => exact ⟨rfl, rfl⟩
    | opened hopens _ _ => exact absurd hcut hopens.not_left
  | opened hopens _ _ ihbases ihfields =>
    cases h' with
    | finished hy => cases hy.symm.trans hopens.unfinished
    | left _ hcut => exact absurd hcut hopens.not_left
    | opened hopens' hbases' hfields' =>
      obtain rfl := Option.some.inj (hopens.body.symm.trans hopens'.body)
      obtain ⟨rfl, rfl⟩ := ihbases _ _ hbases'
      obtain ⟨rfl, rfl⟩ := ihfields _ _ hfields'
      exact ⟨rfl, rfl⟩
  | nil =>
    rename_i h'
    cases h'
    exact ⟨rfl, rfl⟩
  | cons _ _ ih ihs =>
    -- the first construction leaves one desk, so the others start on the same one
    rename_i h'
    cases h' with
    | cons h' hs' =>
      obtain ⟨rfl, rfl⟩ := ih h'
      obtain ⟨rfl, rfl⟩ := ihs _ _ hs'
      exact ⟨rfl, rfl⟩

/-! ### There is a way -/

/-- What a run computes is constructed on every desk with the same path and the same memory. -/
def Constructs (c : Configuration) (path : List ScopeKey) (i : Nat) (memo : Memo) (t : CppType)
    (memo' : Memo) : Prop :=
  ∀ desk : Desk, desk.underway = path → desk.memo = memo →
    ∃ x desk', c.Builds (.record i) desk x desk' ∧ x.type = t ∧ desk'.memo = memo'

theorem Constructs.of_run {path : List ScopeKey} {r : Resolution} {t : CppType} {memo memo' : Memo}
    (hrun : r.Run (c.Constructs path) memo t memo') {desk : Desk} (hpath : desk.underway = path)
    (hmemo : desk.memo = memo) :
    ∃ x desk', c.Builds r desk x desk' ∧ x.type = t ∧ desk'.memo = memo' := by
  cases hrun with
  | known => exact ⟨_, desk, .known, rfl, hmemo⟩
  | record hrun => exact hrun desk hpath hmemo

/-- A row of runs is a row of constructions.  Each of them starts on the desk that the one before
leaves, with the same definitions under way. -/
theorem Constructs.of_thread {path : List ScopeKey} {step : α → Memo → β → Memo → Prop}
    {target : α → Resolution} {give : α → CppType → β}
    (hstep : ∀ a m b m', step a m b m' →
      ∃ t, (target a).Run (c.Constructs path) m t m' ∧ b = give a t)
    {as : List α} {bs : List β} {memo memo' : Memo} (hthread : Memo.Thread step as memo bs memo')
    {desk : Desk} (hpath : desk.underway = path) (hmemo : desk.memo = memo) :
    ∃ xs desk', c.BuildsEach (as.map target) desk xs desk' ∧
      List.zipWith give as (xs.map (·.type)) = bs ∧ desk'.memo = memo' := by
  induction hthread generalizing desk with
  | nil => exact ⟨[], desk, .nil, rfl, hmemo⟩
  | cons ha _ ih =>
    obtain ⟨t, hrun, rfl⟩ := hstep _ _ _ _ ha
    obtain ⟨x, middle, hx, rfl, hmiddle⟩ := Constructs.of_run hrun hpath hmemo
    obtain ⟨xs, desk', hxs, rfl, hmemo'⟩ := ih (hx.keeps.underway.trans hpath) hmiddle
    exact ⟨x :: xs, desk', .cons hx hxs, rfl, hmemo'⟩

theorem constructs_rule (c : Configuration) : c.RunRule c.Constructs where
  remembered := by
    intro path i memo t ht desk hpath hmemo
    subst hpath hmemo
    rw [desk.lookup_memo] at ht
    obtain ⟨x, hx, rfl⟩ := Option.map_eq_some_iff.mp ht
    exact ⟨x, desk, .finished hx, rfl, rfl⟩
  met := by
    intro path i memo hnone hmet desk hpath hmemo
    subst hpath hmemo
    exact ⟨_, desk, .left (Desk.lookup_memo_eq_none.mp hnone) (Or.inl hmet), rfl, rfl⟩
  bodiless := by
    intro path i memo hnone hbody desk hpath hmemo
    subst hpath hmemo
    exact ⟨_, desk, .left (Desk.lookup_memo_eq_none.mp hnone) (Or.inr hbody), rfl, rfl⟩
  built := by
    intro path i memo o bases memo' fields memo'' hnone hidle ho hbases hfields desk hpath hmemo
    subst hpath hmemo
    have hopens : c.Opens desk i o := ⟨Desk.lookup_memo_eq_none.mp hnone, hidle, ho⟩
    -- to begin a definition changes the path, but not what is remembered
    have hstart : (desk.start (c.keyOf i)).underway = c.keyOf i :: desk.underway := rfl
    have hmemo : (desk.start (c.keyOf i)).memo = desk.memo := rfl
    obtain ⟨xs, middle, hxs, rfl, hmiddle⟩ := Constructs.of_thread
      (fun _ _ _ _ ⟨hrun⟩ => ⟨_, hrun, rfl⟩) hbases hstart hmemo
    obtain ⟨ys, inner, hys, rfl, rfl⟩ := Constructs.of_thread
      (fun _ _ _ _ ⟨hrun⟩ => ⟨_, hrun, rfl⟩) hfields hxs.keeps.underway hmiddle
    exact ⟨_, _, .opened hopens hxs hys, rfl, rfl⟩

/-- The type that a resolution means inside the definitions on the path. -/
def typeWithin (c : Configuration) (levels : Nat) (path : List ScopeKey) (r : Resolution)
    (memo : Memo) : CppType × Memo :=
  match r with
  | .known t => (t, memo)
  | .record i => c.recordWithin levels path i memo

theorem typeWithin_nil (r : Resolution) (memo : Memo) :
    c.typeWithin (c.scopes.length + 1) [] r memo = c.typeOf r memo := by
  cases r with
  | known => rfl
  | record => rfl

/-- Where there is room a construction ends, with what is computed. -/
theorem exists_builds {levels : Nat} {desk : Desk} (hroom : c.Room levels desk.underway)
    (r : Resolution) :
    ∃ x desk', c.Builds r desk x desk' ∧
      c.typeWithin levels desk.underway r desk.memo = (x.type, desk'.memo) := by
  cases r with
  | known t => exact ⟨_, desk, .known, rfl⟩
  | record i =>
    obtain ⟨x, desk', hx, htype, hmemo⟩ :=
      recordWithin_run c.constructs_rule hroom i desk.memo desk rfl rfl
    exact ⟨x, desk', hx, Prod.ext htype.symm hmemo.symm⟩

end Configuration

end GrowthAudit
