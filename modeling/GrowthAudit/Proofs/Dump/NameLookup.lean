import GrowthAudit.CppType.Verdict
import GrowthAudit.Dump.RecordTypes
import Mathlib.Data.List.Basic
import Mathlib.Data.List.TakeWhile

/-!
# Looking up the name of a record

A record that is the only one of its qualified name should be found under it.  Two things stand in
the way.  A name is that of an enumeration before it can be that of a record, and for this it is
enough that its last component is the name of an enumeration anywhere.  And a name is cut at its
first angle bracket and freed from colons in front before records are searched, while their
qualified names are compared as they are.

* `Configuration.findRecord?_eq_some_iff`: which record is found.
* `Configuration.FoundAgain`: neither of the two stands in the way of a record.
* `Configuration.lookupName_qualifiedName_iff`: then, and only then, its qualified name means the
  type that is built from it.
-/

namespace GrowthAudit

namespace Text

/-- What records are searched for: the name without template arguments and colons in front. -/
def lookupKey (name : String) : String := unrooted (untemplated name)

theorem untemplated_of_notMem {name : String} (h : '<' ∉ name.toList) : untemplated name = name := by
  rw [untemplated, List.takeWhile_eq_self_iff.mpr, String.ofList_toList]
  intro x hx
  rw [decide_eq_true_eq]
  rintro rfl
  exact h hx

end Text

open Text

namespace Configuration

variable {c : Configuration}

/-! ### Which record is found -/

theorem mem_named {kind : ScopeKind} {i : Nat} :
    i ∈ c.named kind ↔ ∃ s, c.scope? i = some s ∧ s.kind = kind ∧ s.className ≠ "" := by
  rw [named, List.mem_filter, List.mem_range]
  cases hs : c.scope? i with
  | none => simp
  | some s =>
    have hlt : i < c.scopes.length := (List.getElem?_eq_some_iff.mp hs).1
    simp [hlt]

/-- `i` is the first record that has a property. -/
def FirstRecord (c : Configuration) (P : Nat → Prop) (i : Nat) : Prop :=
  i ∈ c.named .record ∧ P i ∧ ∀ j ∈ c.named .record, j < i → ¬ P j

theorem find?_named_eq_some_iff {p : Nat → Bool} {i : Nat} :
    (c.named .record).find? p = some i ↔ c.FirstRecord (fun j => p j = true) i := by
  -- the records stand in the list in their order
  rw [FirstRecord, named, List.find?_filter, List.find?_range_eq_some]
  simp only [List.mem_filter, List.mem_range, decide_eq_true_eq, Bool.not_eq_true',
    decide_eq_false_iff_not]
  constructor
  · rintro ⟨⟨hi, hp⟩, hlt, hbefore⟩
    exact ⟨⟨hlt, hi⟩, hp, fun j hj hji hpj => hbefore j hji ⟨hj.2, hpj⟩⟩
  · rintro ⟨⟨hlt, hi⟩, hp, hbefore⟩
    refine ⟨⟨hi, hp⟩, hlt, ?_⟩
    rintro j hji ⟨hj, hpj⟩
    exact hbefore j ⟨Nat.lt_trans hji hlt, hj⟩ hji hpj

/-- A record is called by a name that is not its whole name: its own name is the last component, and
its qualified name ends in the text. -/
def CalledBy (c : Configuration) (key : String) (i : Nat) : Prop :=
  c.className i = lastComponent key ∧ endsIn (c.qualifiedName i) key = true

/-- The record that a name means is the first one of this qualified name, or, where there is none,
the first one that is called by the name. -/
theorem findRecord?_eq_some_iff {name : String} {i : Nat} :
    c.findRecord? name = some i ↔
      c.FirstRecord (fun j => c.qualifiedName j = lookupKey name) i ∨
        (∀ j ∈ c.named .record, c.qualifiedName j ≠ lookupKey name) ∧
          c.FirstRecord (c.CalledBy (lookupKey name)) i := by
  simp only [findRecord?, Option.or_eq_some_iff, find?_named_eq_some_iff, List.find?_eq_none,
    beq_iff_eq, Bool.and_eq_true]
  rfl

theorem mem_named_of_findRecord? {name : String} {i : Nat} (h : c.findRecord? name = some i) :
    i ∈ c.named .record := by
  rcases findRecord?_eq_some_iff.mp h with ⟨hi, -⟩ | ⟨-, hi, -⟩
  · exact hi
  · exact hi

/-! ### The type that is built from a record -/

theorem name_of_outline? {i : Nat} {o : Record Resolution} (h : c.outline? i = some o) :
    o.name = c.qualifiedName i := by
  obtain ⟨s, body, -, -, rfl⟩ := outline?_eq_some_iff.mp h
  rfl

theorem exists_outline?_of_bodyStart {i : Nat}
    (hbody : (c.scope? i).bind (·.bodyStart) ≠ none) : ∃ o, c.outline? i = some o := by
  obtain ⟨body, hbody⟩ := Option.ne_none_iff_exists'.mp hbody
  obtain ⟨s, hs, hbody⟩ := Option.bind_eq_some_iff.mp hbody
  exact ⟨_, outline?_eq_some_iff.mpr ⟨s, body, hs, hbody, rfl⟩⟩

/-- Nothing is remembered or being built at first, so a record that has a body is built. -/
theorem recordType_nil_of_some {i : Nat} {o : Record Resolution} (h : c.outline? i = some o) :
    ∃ bases fields, (c.recordType i []).1 = .complete (.ofOutline o bases fields) := by
  rw [recordType, recordWithin]
  simp only [List.lookup_nil, List.contains_nil, Bool.false_eq_true, if_false, h]
  exact ⟨_, _, rfl⟩

theorem name_recordType_nil (i : Nat) : (c.recordType i []).1.name = c.qualifiedName i := by
  cases h : c.outline? i with
  | none =>
    rw [recordType, recordWithin]
    simp only [List.lookup_nil, List.contains_nil, Bool.false_eq_true, if_false, h]
    rfl
  | some o =>
    obtain ⟨bases, fields, htype⟩ := recordType_nil_of_some h
    rw [htype]
    exact name_of_outline? h

/-! ### A record and its own name -/

/-- The name is that of an enumeration, alone or qualified. -/
def NamesEnumeration (c : Configuration) (name : String) : Prop :=
  ∃ e ∈ c.named .enumeration, c.className e = name ∨ c.qualifiedName e = name

theorem isEnumeration_iff {name : String} :
    c.isEnumeration name = true ↔ c.NamesEnumeration (unrooted name) ∨
      c.NamesEnumeration (lastComponent (unrooted name)) := by
  have hnames : ∀ n, n ∈ c.enumerationNames ↔ c.NamesEnumeration n := by
    intro n
    rw [enumerationNames, List.mem_flatMap]
    refine exists_congr fun e => and_congr_right fun _ => ?_
    rw [List.mem_pair, eq_comm, eq_comm (a := n)]
  rw [isEnumeration, Bool.or_eq_true, List.contains_iff_mem, List.contains_iff_mem, hnames, hnames]

/-- Nothing stands between a record and its qualified name. -/
structure FoundAgain (c : Configuration) (i : Nat) : Prop where
  /-- No enumeration has the name. -/
  notEnumeration : ¬ c.NamesEnumeration (unrooted (c.qualifiedName i))
  /-- No enumeration anywhere has the last component for its name. -/
  notNamesake : ¬ c.NamesEnumeration (lastComponent (unrooted (c.qualifiedName i)))
  /-- The name is searched for as it is; or what is searched for is the name of no record, and the
  record is the first one that is called by it. -/
  searched : c.qualifiedName i = lookupKey (c.qualifiedName i) ∨
    (∀ j ∈ c.named .record, c.qualifiedName j ≠ lookupKey (c.qualifiedName i)) ∧
      c.FirstRecord (c.CalledBy (lookupKey (c.qualifiedName i))) i

section

variable {i : Nat} (hi : i ∈ c.named .record)
  (hunique : ∀ j ∈ c.named .record, c.qualifiedName j = c.qualifiedName i → j = i)

include hi hunique

theorem lookupName_eq_record_iff :
    c.lookupName (c.qualifiedName i) = .record i ↔ c.FoundAgain i := by
  have hfirst : c.FirstRecord (fun j => c.qualifiedName j = lookupKey (c.qualifiedName i)) i ↔
      c.qualifiedName i = lookupKey (c.qualifiedName i) := by
    refine ⟨fun h => h.2.1, fun h => ⟨hi, h, fun j hj hlt hkey => ?_⟩⟩
    exact absurd (hunique j hj (hkey.trans h.symm)) (Nat.ne_of_lt hlt)
  have hfound : c.findRecord? (c.qualifiedName i) = some i ↔ _ := findRecord?_eq_some_iff
  rw [hfirst] at hfound
  rw [lookupName]
  constructor
  · intro h
    split at h
    · cases h
    · next henum =>
      rw [isEnumeration_iff, not_or] at henum
      split at h
      · next j hj =>
        cases h
        exact ⟨henum.1, henum.2, hfound.mp hj⟩
      · cases h
  · rintro ⟨hname, hlast, hsearched⟩
    rw [if_neg (fun henum => (isEnumeration_iff.mp henum).elim hname hlast),
      hfound.mpr hsearched]

/-- **A record is found again under its qualified name iff nothing stands in between.**  For a
record with a body whose qualified name no other record has: the type that is built from it is
complete, and the name means that type exactly if no enumeration takes the name and the search for
it hits the record. -/
theorem lookupName_qualifiedName_iff (hbody : (c.scope? i).bind (·.bodyStart) ≠ none) :
    (∃ o bases fields, c.outline? i = some o ∧
      (c.recordType i []).1 = .complete (.ofOutline o bases fields)) ∧
    ((c.typeOf (c.lookupName (c.qualifiedName i)) []).1 = (c.recordType i []).1 ↔
      c.FoundAgain i) := by
  obtain ⟨o, ho⟩ := exists_outline?_of_bodyStart hbody
  obtain ⟨bases, fields, htype⟩ := recordType_nil_of_some ho
  refine ⟨⟨o, bases, fields, ho, htype⟩, ?_⟩
  rw [← lookupName_eq_record_iff hi hunique]
  constructor
  · intro hsame
    have hname := congrArg CppType.name hsame
    have hdefinition := congrArg CppType.definition (hsame.trans htype)
    revert hname hdefinition
    rw [lookupName]
    split
    · intro _ hdefinition
      exact nomatch (hdefinition : none = some _)
    · split
      · next j hj =>
        -- another record would have its own name
        intro hname _
        rw [typeOf, name_recordType_nil, name_recordType_nil] at hname
        rw [hunique j (mem_named_of_findRecord? hj) hname]
      · intro _ hdefinition
        exact nomatch (hdefinition : none = some _)
  · intro h
    rw [h, typeOf]

end

/-- A record whose name has template arguments is not found by them. -/
example : ({ scopes := [{ kind := .record, className := "Pair<int>", bodyStart := some 0 }] } :
    Configuration).findRecord? "Pair<int>" = none := by decide +kernel

/-- `namespace a { struct Color { Color(Color&&); }; } namespace b { enum Mood { }; }`, with the
name of the enumeration left open. -/
def colorSample (enumeration : String) : Configuration where
  tokens := [
    { text := "namespace" }, { text := "a" }, { text := "\x7b" },
    { text := "struct" }, { text := "Color" }, { text := "\x7b" }, { text := "Color" },
    { text := "(" }, { text := "Color" }, { text := "&&" }, { text := ")" }, { text := ";" },
    { text := "\x7d" }, { text := ";" }, { text := "\x7d" },
    { text := "namespace" }, { text := "b" }, { text := "\x7b" }, { text := "enum" },
    { text := enumeration }, { text := "\x7b" }, { text := "\x7d" }, { text := ";" },
    { text := "\x7d" }]
  scopes := [
    { kind := .nameSpace, className := "a", id := some "1", bodyStart := some 2 },
    { kind := .record, className := "Color", id := some "2", bodyStart := some 5, nestedIn := some 0
      functions := [{ kind := .moveConstructor, nameToken := some 6 }] },
    { kind := .nameSpace, className := "b", id := some "3", bodyStart := some 17 },
    { kind := .enumeration, className := enumeration, id := some "4", bodyStart := some 20
      nestedIn := some 2 }]

theorem lookupName_qualifiedName_iff_sample :
    1 ∈ (colorSample "Mood").named .record ∧
      (∀ j ∈ (colorSample "Mood").named .record,
        (colorSample "Mood").qualifiedName j = (colorSample "Mood").qualifiedName 1 → j = 1) ∧
      ((colorSample "Mood").scope? 1).bind (·.bodyStart) ≠ none ∧
      (colorSample "Mood").FoundAgain 1 ∧
      ((colorSample "Mood").typeOf ((colorSample "Mood").lookupName "a::Color") []).1 =
        ((colorSample "Mood").recordType 1 []).1 := by
  have hi : 1 ∈ (colorSample "Mood").named .record := by decide +kernel
  have hunique : ∀ j ∈ (colorSample "Mood").named .record,
      (colorSample "Mood").qualifiedName j = (colorSample "Mood").qualifiedName 1 → j = 1 := by
    decide +kernel
  have hbody : ((colorSample "Mood").scope? 1).bind (·.bodyStart) ≠ none := by decide +kernel
  have hname : (colorSample "Mood").qualifiedName 1 = "a::Color" := by decide +kernel
  have henum : ¬ (colorSample "Mood").isEnumeration "a::Color" = true := by decide +kernel
  rw [isEnumeration_iff, not_or, ← hname] at henum
  have hfound : (colorSample "Mood").FoundAgain 1 :=
    ⟨henum.1, henum.2, .inl (by decide +kernel)⟩
  refine ⟨hi, hunique, hbody, hfound, ?_⟩
  rw [← hname]
  exact (lookupName_qualifiedName_iff hi hunique hbody).2.mpr hfound

/-- An enumeration `b::Color` takes the name of the record `a::Color`, although no other record or
enumeration has this qualified name.  The record degrades, and what its name means does not. -/
theorem shadowed_color_sample :
    1 ∈ (colorSample "Color").named .record ∧
      ((colorSample "Color").scope? 1).bind (·.bodyStart) ≠ none ∧
      (colorSample "Color").qualifiedName 1 = "a::Color" ∧
      (∀ kind ∈ [ScopeKind.record, .enumeration], ∀ j ∈ (colorSample "Color").named kind,
        (colorSample "Color").qualifiedName j = "a::Color" → j = 1) ∧
      ((colorSample "Color").recordType 1 []).1.degrades = true ∧
      ((colorSample "Color").typeOf ((colorSample "Color").lookupName "a::Color") []).1.degrades =
        false ∧
      ((colorSample "Color").typeOf ((colorSample "Color").lookupName "a::Color") []).1 ≠
        ((colorSample "Color").recordType 1 []).1 := by
  have hrecord : ((colorSample "Color").recordType 1 []).1.degrades = true := by decide +kernel
  have hname : ((colorSample "Color").typeOf
      ((colorSample "Color").lookupName "a::Color") []).1.degrades = false := by decide +kernel
  refine ⟨by decide +kernel, by decide +kernel, by decide +kernel, by decide +kernel, hrecord,
    hname, fun hsame => ?_⟩
  rw [hsame, hrecord] at hname
  cases hname

end Configuration

end GrowthAudit
