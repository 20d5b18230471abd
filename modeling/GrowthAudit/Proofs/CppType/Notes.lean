import GrowthAudit.Diagnostic.OfFinding
import GrowthAudit.Proofs.CppType.Truncation

/-!
# Notes that walk down an explanation

An explanation is told twice: by the notes of a diagnostic, two for each step, and by its evidence,
one entry for each step.  A note that blames a type is followed by the note that says where a record
is defined.  The two are about the same record, because each step of an explanation is about the
type that the step before blames; they name it alike as long as types carry the names of their
definitions.

* `CppType.WellNamed`: a type that carries the name of its definition, and so do all types inside
  it.
* `CppType.Explained.wellNamed_subject`: all subjects of an explanation are well named and degrade,
  by induction on the steps in front.
* `CppType.Explained.record_of_blamed`: a step is about the record that the step before blames.
* `CauseStep.getElem?_notes`: the two notes of a step.
* `Location.Written`, `Blamed.Ruled`: the words of an entry of the evidence.
* `EvidenceStep.Agrees`, `Diagnostic.Follows`: what is to be expected of the notes and the evidence.
* `CppType.follows_of_audit?`: **the diagnostic of every finding follows its explanation.**
-/

namespace GrowthAudit

/-! ### Names of types -/

/-- A record type carries the name of its definition, and so do all types of members and bases,
however deep inside they are. -/
inductive CppType.WellNamed : CppType → Prop
  | intro {t : CppType} :
      (t.isRecord = true → ∀ r, t.definition = some r → t.name = r.name) →
      (∀ r, t.definition = some r → ∀ f ∈ r.fields, WellNamed f.type) →
      (∀ r, t.definition = some r → ∀ b ∈ r.bases, WellNamed b.type) → WellNamed t

namespace CppType

variable {t u : CppType} {m : Int} {step : CauseStep} {steps : List CauseStep}

theorem WellNamed.of_none (h : t.definition = none) : t.WellNamed := by
  refine .intro ?_ ?_ ?_
  · intro _ r hr
    cases hr.symm.trans h
  · intro r hr
    cases hr.symm.trans h
  · intro r hr
    cases hr.symm.trans h

theorem WellNamed.complete {r : Record CppType} (hfields : ∀ f ∈ r.fields, f.type.WellNamed)
    (hbases : ∀ b ∈ r.bases, b.type.WellNamed) : (complete r).WellNamed := by
  refine .intro ?_ ?_ ?_
  · intro _ r' hr'
    cases hr'
    rfl
  · intro r' hr'
    cases hr'
    exact hfields
  · intro r' hr'
    cases hr'
    exact hbases

/-- Whatever the definition of a well named type blames is well named. -/
theorem WellNamed.of_cause? (h : t.WellNamed) (hcause : t.cause? = some step)
    (hu : step.blamed.type? = some u) : u.WellNamed := by
  obtain ⟨r, hr, -, hblames⟩ := exists_blames_of_cause? hcause
  cases h with
  | intro _ hfields hbases =>
    rcases hblames.exists_part hu with ⟨f, hf, rfl⟩ | ⟨b, hb, rfl⟩
    · exact hfields r hr f hf
    · exact hbases r hr b hb

/-- A type that degrades is no scalar, so it carries the name of its definition. -/
theorem WellNamed.name_eq (h : t.WellNamed) (hdegrades : t.degrades = true) {r : Record CppType}
    (hr : t.definition = some r) : t.name = r.name := by
  have hrecord : t.isRecord = true := by
    have htrivial := (degrades_iff.mp hdegrades).1
    rw [isTrivial, Bool.or_eq_false_iff, isScalar] at htrivial
    rw [isRecord]
    cases hkind : t.kind with
    | record => rfl
    | _ =>
      rw [hkind] at htrivial
      exact absurd htrivial.1 (by decide)
  cases h with
  | intro hname _ _ => exact hname hrecord r hr

/-- **Every subject of an explanation** is well named and degrades. -/
theorem Explained.wellNamed_subject (h : t.Explained m steps) (hnamed : t.WellNamed)
    (hdegrades : t.degrades = true) {i : Nat} (hu : t.subject? steps i = some u) :
    u.WellNamed ∧ u.degrades = true := by
  induction i generalizing u with
  | zero =>
    cases hu
    exact ⟨hnamed, hdegrades⟩
  | succ i ih =>
    obtain ⟨step, hstep, hblamed⟩ := Option.bind_eq_some_iff.mp hu
    obtain ⟨v, r, hv, hr, hcause, -⟩ := h.linked i step hstep
    have hvcause : v.cause? = some step := by rw [cause?, hr, Option.bind_some, hcause]
    exact ⟨(ih hv).1.of_cause? hvcause hblamed,
      h.blamed_degrades step (List.mem_of_getElem? hstep) u hblamed⟩

/-- **The record of a step carries the name of the type that the step before blames.** -/
theorem Explained.record_of_blamed (h : t.Explained m steps) (hnamed : t.WellNamed)
    (hdegrades : t.degrades = true) {i : Nat} {next : CauseStep} (hstep : steps[i]? = some step)
    (hu : step.blamed.type? = some u) (hnext : steps[i + 1]? = some next) :
    next.record = u.name := by
  obtain ⟨v, r, hv, hr, hcause, -⟩ := h.linked (i + 1) next hnext
  have hsubject : t.subject? steps (i + 1) = some u := by
    rw [subject?, hstep, Option.bind_some, hu]
  obtain rfl := Option.some.inj (hv.symm.trans hsubject)
  obtain ⟨hwell, hbad⟩ := h.wellNamed_subject hnamed hdegrades hv
  obtain ⟨b, -, rfl⟩ := Option.map_eq_some_iff.mp hcause
  exact (hwell.name_eq hbad hr).symm

end CppType

/-! ### Notes and evidence -/

/-- The note about a constructor that throws. -/
def declaredHere (location : Location) : Note :=
  ⟨"throwing move constructor declared here", location⟩

/-- The note about a member or base whose type is to blame. -/
def blamedHere (type : String) (location : Location) : Note :=
  ⟨"because the move constructor of '" ++ type ++ "' may throw", location⟩

theorem blamedHere_ne_declaredHere (type : String) (location location' : Location) :
    blamedHere type location ≠ declaredHere location' := by
  intro h
  have hblamed : "because the move constructor of '".toList.head? = some 'b' := by decide
  have hdeclared : "throwing move constructor declared here".toList.head? = some 't' := by decide
  have hmessage : "because the move constructor of '" ++ type ++ "' may throw" =
      "throwing move constructor declared here" := congrArg Note.message h
  rw [← hmessage, String.toList_append, String.toList_append, List.append_assoc,
    List.head?_append, hblamed] at hdeclared
  cases hdeclared

/-- The notes of an explanation come in pairs. -/
theorem CauseStep.getElem?_notes (chain : List CauseStep) (i : Nat) :
    (chain.flatMap (·.notes))[2 * i]? = chain[i]?.map (fun s => definedHere s.record s.site) ∧
      (chain.flatMap (·.notes))[2 * i + 1]? = chain[i]?.map (·.blamed.note) := by
  induction chain generalizing i with
  | nil => simp
  | cons step chain ih =>
    have hpair : (step :: chain).flatMap (·.notes) =
        definedHere step.record step.site :: step.blamed.note :: chain.flatMap (·.notes) := rfl
    rw [hpair]
    cases i with
    | zero => exact ⟨rfl, rfl⟩
    | succ i => exact ih i

theorem CauseStep.length_notes (chain : List CauseStep) :
    (chain.flatMap (·.notes)).length = 2 * chain.length := by
  induction chain with
  | nil => rfl
  | cons step chain ih =>
    rw [List.flatMap_cons, List.length_append, ih, List.length_cons]
    show 2 + 2 * chain.length = 2 * (chain.length + 1)
    omega

/-- How a location is written: its file and its line, and its column unless that is zero, with
colons between. -/
inductive Location.Written (l : Location) : String → Prop
  | line : l.column = 0 → Written l (l.file ++ ":" ++ toString l.line)
  | column : l.column ≠ 0 →
      Written l (l.file ++ ":" ++ toString l.line ++ (":" ++ toString l.column))

theorem Location.written_text (l : Location) : l.Written l.text := by
  rw [text]
  split
  · next hzero =>
    rw [String.append_empty]
    exact .line hzero
  · next hcolumn => exact .column hcolumn

/-- The word for what is blamed. -/
inductive Blamed.Ruled : Blamed → String → Prop
  | ctor {name : String} {location : Location} :
      Ruled (.ctor name location) "userThrowingMoveConstructor"
  | field {name : String} {location : Location} {type : CppType} :
      Ruled (.field name location type) "throwingField"
  | base {location : Location} {type : CppType} :
      Ruled (.base location type) "throwingNonVirtualBase"

/-- An entry of the evidence says the same as two notes: which record it is and where it is defined,
where the blame lies, and whether it lies with a constructor, a member or a base. -/
structure EvidenceStep.Agrees (entry : EvidenceStep) (b : Blamed) (defined blamed : Note) :
    Prop where
  record : defined = definedHere entry.record defined.location
  recordSite : defined.location.Written entry.recordSite
  blamedSite : blamed.location.Written entry.blamedSite
  ruled : b.Ruled entry.rule
  rule : entry.rule = "userThrowingMoveConstructor" ↔ blamed = declaredHere blamed.location

namespace Blamed

theorem location_note (b : Blamed) : b.note.location = b.location := by
  rw [note]
  split
  · rfl
  · rfl

theorem ruled_rule (b : Blamed) : b.Ruled b.rule := by
  cases b with
  | ctor name location => exact .ctor
  | field name location type => exact .field
  | base location type => exact .base

theorem rule_eq_iff (b : Blamed) : b.rule = "userThrowingMoveConstructor" ↔ b.type? = none := by
  cases b with
  | ctor name location => exact ⟨fun _ => rfl, fun _ => rfl⟩
  | field name location type => simp [rule, type?]
  | base location type => simp [rule, type?]

theorem note_eq_declaredHere_iff (b : Blamed) :
    b.note = declaredHere b.location ↔ b.type? = none := by
  rw [note]
  split
  · next hnone => exact ⟨fun _ => hnone, fun _ => rfl⟩
  · next type hsome =>
    rw [hsome]
    constructor
    · intro hnote
      exact absurd hnote (blamedHere_ne_declaredHere type.name b.location b.location)
    · intro hnone
      cases hnone

end Blamed

theorem CauseStep.evidence_agrees (step : CauseStep) :
    step.evidence.Agrees step.blamed (definedHere step.record step.site) step.blamed.note where
  record := rfl
  recordSite := step.site.written_text
  blamedSite := by
    rw [Blamed.location_note]
    exact step.blamed.location.written_text
  ruled := step.blamed.ruled_rule
  rule := by
    rw [Blamed.location_note, Blamed.note_eq_declaredHere_iff]
    exact step.blamed.rule_eq_iff

/-- What is to be expected of the diagnostic for a type with a given explanation.  Positions are
counted from zero, so step `i` has the notes `2 * i` and `2 * i + 1`. -/
structure Diagnostic.Follows (d : Diagnostic) (t : CppType) (chain : List CauseStep) : Prop where
  /-- Without an explanation, the single note is about the type itself. -/
  unexplained : chain = [] → ∃ r, t.definition = some r ∧ d.notes = [definedHere t.name r.site]
  length_notes : chain ≠ [] → d.notes.length = 2 * chain.length
  /-- The first note of a step says where the record is defined that the step is about, and which
  blames what the step blames. -/
  defined : ∀ i step, chain[i]? = some step → ∃ u r, t.subject? chain i = some u ∧
    u.definition = some r ∧ step.record = r.name ∧ r.Blames step.blamed ∧
    d.notes[2 * i]? = some (definedHere r.name r.site)
  /-- The second note is about a constructor in the last step only. -/
  declared : ∀ i step name location, chain[i]? = some step → step.blamed = .ctor name location →
    i + 1 = chain.length ∧ d.notes[2 * i + 1]? = some (declaredHere location)
  /-- Otherwise it blames a type, and the note behind it says where the record of that name is
  defined. -/
  blamed : ∀ i step u, chain[i]? = some step → step.blamed.type? = some u →
    d.notes[2 * i + 1]? = some (blamedHere u.name step.blamed.location) ∧
      (i + 1 < chain.length → ∃ site, d.notes[2 * (i + 1)]? = some (definedHere u.name site))
  extra : d.extra = " -> ".intercalate (chain.map (·.blamed.name))
  /-- The evidence has an entry for each step, which names what the step blames and agrees with its
  notes. -/
  evidence : ∃ e, d.evidence = some e ∧ e.chain.map (·.blamed) = chain.map (·.blamed.name) ∧
    ∀ i entry, e.chain[i]? = some entry → ∃ step defined blamed, chain[i]? = some step ∧
      d.notes[2 * i]? = some defined ∧ d.notes[2 * i + 1]? = some blamed ∧
      entry.Agrees step.blamed defined blamed
  confidence : d.confidence = .high ↔ chain ≠ []

namespace Finding

variable {f : Finding} (checker : String)

theorem notes_eq (h : f.chain ≠ []) : f.notes = f.chain.flatMap (·.notes) := by
  rw [notes, if_neg]
  rw [List.isEmpty_iff]
  exact h

/-- The first note of a step. -/
theorem getElem?_notes_defined {i : Nat} {step : CauseStep} (h : f.chain[i]? = some step) :
    (f.diagnostic checker).notes[2 * i]? = some (definedHere step.record step.site) := by
  show f.notes[2 * i]? = _
  rw [notes_eq (List.ne_nil_of_mem (List.mem_of_getElem? h)), (CauseStep.getElem?_notes _ i).1, h,
    Option.map_some]

/-- The second note of a step. -/
theorem getElem?_notes_blamed {i : Nat} {step : CauseStep} (h : f.chain[i]? = some step) :
    (f.diagnostic checker).notes[2 * i + 1]? = some step.blamed.note := by
  show f.notes[2 * i + 1]? = _
  rw [notes_eq (List.ne_nil_of_mem (List.mem_of_getElem? h)), (CauseStep.getElem?_notes _ i).2, h,
    Option.map_some]

/-- The entry of a step agrees with its notes. -/
theorem evidence_agrees {i : Nat} {entry : EvidenceStep}
    (h : (f.chain.map (·.evidence))[i]? = some entry) :
    ∃ step defined blamed, f.chain[i]? = some step ∧
      (f.diagnostic checker).notes[2 * i]? = some defined ∧
      (f.diagnostic checker).notes[2 * i + 1]? = some blamed ∧
      entry.Agrees step.blamed defined blamed := by
  rw [List.getElem?_map] at h
  obtain ⟨step, hstep, rfl⟩ := Option.map_eq_some_iff.mp h
  exact ⟨step, _, _, hstep, getElem?_notes_defined checker hstep,
    getElem?_notes_blamed checker hstep, step.evidence_agrees⟩

end Finding

namespace CppType

variable {t : CppType} {m : Int} {container : String} {site : Location} {finding : Finding}

/-- A finding is about a type that degrades, and has its explanation. -/
theorem of_audit? (h : t.audit? container site m = some finding) :
    t.degrades = true ∧ finding = ⟨container, t, site, t.explain 1 m⟩ := by
  rw [audit?] at h
  split at h
  · next hdegrades =>
    cases h
    exact ⟨hdegrades, rfl⟩
  · cases h

/-- **The diagnostic of a finding follows its explanation**, step by step, if all types are well
named. -/
theorem follows_of_audit? (hnamed : t.WellNamed)
    (h : t.audit? container site m = some finding) (checker : String) :
    (finding.diagnostic checker).Follows t finding.chain := by
  obtain ⟨hdegrades, rfl⟩ := of_audit? h
  have hexplained : t.Explained (((m - 1).toNat : Nat) + 1) (t.explain 1 m) :=
    explained_trace (m - 1).toNat hdegrades
  exact {
    unexplained := by
      intro hempty
      obtain ⟨-, r, hr, -⟩ := degrades_iff.mp hdegrades
      refine ⟨r, hr, ?_⟩
      show Finding.notes _ = _
      rw [Finding.notes, if_pos (List.isEmpty_iff.mpr hempty), hr]
      rfl
    length_notes := by
      intro hne
      show (Finding.notes _).length = _
      rw [Finding.notes_eq hne, CauseStep.length_notes]
    defined := by
      intro i step hstep
      obtain ⟨u, r, hu, hr, hcause, hblames⟩ := hexplained.linked i step hstep
      obtain ⟨b, -, rfl⟩ := Option.map_eq_some_iff.mp hcause
      exact ⟨u, r, hu, hr, rfl, hblames, Finding.getElem?_notes_defined checker hstep⟩
    declared := by
      intro i step name location hstep hctor
      refine ⟨hexplained.ctor_last i step hstep ⟨name, location, hctor⟩, ?_⟩
      rw [Finding.getElem?_notes_blamed checker hstep, hctor]
      rfl
    blamed := by
      intro i step u hstep hu
      refine ⟨?_, ?_⟩
      · rw [Finding.getElem?_notes_blamed checker hstep, Blamed.note, hu]
        rfl
      · intro hlt
        have hnext := List.getElem?_eq_getElem hlt
        have hrecord := hexplained.record_of_blamed hnamed hdegrades hstep hu hnext
        exact ⟨_, hrecord ▸ Finding.getElem?_notes_defined checker hnext⟩
    extra := rfl
    evidence := ⟨_, rfl, List.map_map, fun i entry => Finding.evidence_agrees checker⟩
    confidence := by
      show (if (t.explain 1 m).isEmpty then Confidence.medium else .high) = .high ↔ _
      cases t.explain 1 m with
      | nil => simp
      | cons step steps => simp }

theorem wellNamed_nestedSample : nestedSample.WellNamed := by
  refine .complete ?_ ?_
  · intro f hf
    simp only [List.mem_cons, List.not_mem_nil, or_false] at hf
    rcases hf with rfl | rfl
    · exact .of_none rfl
    · refine .complete ?_ ?_
      · intro f hf
        cases hf
      · intro b hb
        obtain rfl := List.mem_singleton.mp hb
        refine .complete ?_ ?_
        · intro f hf
          cases hf
        · intro b hb
          cases hb
  · intro b hb
    cases hb

/-- The explanation of `Outer` ends with a constructor, or in front of it where there is room for
two steps only. -/
theorem follows_of_audit?_sample :
    nestedSample.WellNamed ∧ ∃ long short,
      nestedSample.audit? "std::vector" {} 3 = some long ∧
      nestedSample.audit? "std::vector" {} 2 = some short ∧
      (long.diagnostic "growth").Follows nestedSample long.chain ∧
      (short.diagnostic "growth").Follows nestedSample short.chain ∧
      (long.diagnostic "growth").notes.map (·.message) =
        ["'Outer' defined here", "because the move constructor of 'Middle' may throw",
          "'Middle' defined here", "because the move constructor of 'Inner' may throw",
          "'Inner' defined here", "throwing move constructor declared here"] ∧
      (long.diagnostic "growth").evidence.map (·.chain.map (·.rule)) =
        some ["throwingField", "throwingNonVirtualBase", "userThrowingMoveConstructor"] ∧
      (short.diagnostic "growth").extra = "m -> Inner" := by
  have hnamed := wellNamed_nestedSample
  exact ⟨hnamed, _, _, rfl, rfl, follows_of_audit? hnamed rfl _, follows_of_audit? hnamed rfl _,
    by decide, by decide, by decide⟩

end CppType

end GrowthAudit
