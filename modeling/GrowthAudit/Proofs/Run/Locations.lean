import GrowthAudit.Proofs.CppType.Notes
import GrowthAudit.Proofs.Dump.TrivialCopies
import GrowthAudit.Proofs.Run.ExitCode

/-!
# Where diagnostics point

A diagnostic points to the place where a container is used, and its notes point to the definitions,
constructors, members and bases that explain it.  Nothing on the way makes up a place: each is that
of a token, or it is the place that is not known.

* `Configuration.Located`: the places of a configuration.
* `Configuration.Grounded.locatedIn`: a record that was built is located in its configuration,
  because its outline is (`Configuration.locatedIn_outline`).
* `Configuration.Grounded.located_trace`: so are all steps of an explanation, by induction on its
  length.
* `Runner.located_of_mem_reported`: **every place to which the standard checkers point is that of a
  token of one of the configurations.**
-/

namespace GrowthAudit

/-! ### Tokens of a class head -/

namespace Token

variable {t : Token} {ts : List Token}

theorem mem_of_mem_between {first : Nat} {last : Option Nat} (h : t ∈ between ts first last) :
    t ∈ ts := by
  rw [between.eq_def] at h
  split at h
  · exact List.mem_of_mem_drop h
  · split at h
    · exact List.mem_of_mem_drop (List.mem_of_mem_take h)
    · exact List.mem_of_mem_drop h

theorem mem_of_mem_splitAt {depth : Int} {group : List Token} (hgroup : group ∈ splitAt depth ts)
    (h : t ∈ group) : t ∈ ts := by
  induction ts generalizing depth group with
  | nil =>
    rw [List.mem_singleton.mp hgroup] at h
    exact h
  | cons u ts ih =>
    rw [splitAt] at hgroup
    split at hgroup
    · rcases List.mem_cons.mp hgroup with rfl | hgroup
      · exact absurd h List.not_mem_nil
      · exact List.mem_cons_of_mem u (ih hgroup h)
    · split at hgroup
      · rw [List.mem_singleton.mp hgroup] at h
        rw [List.mem_singleton.mp h]
        exact List.mem_cons_self
      · next first groups hsplit =>
        rcases List.mem_cons.mp hgroup with rfl | hgroup
        · rcases List.mem_cons.mp h with rfl | h
          · exact List.mem_cons_self
          · exact List.mem_cons_of_mem u (ih (hsplit ▸ List.mem_cons_self) h)
        · exact List.mem_cons_of_mem u (ih (hsplit ▸ List.mem_cons_of_mem first hgroup) h)

end Token

theorem ClassHead.mem_of_mem_bases {t : Token} {ts : List Token} {body : Nat}
    (h : t ∈ (ofBody ts body).bases) : t ∈ ts := by
  rw [ofBody.eq_def] at h
  split at h
  · exact absurd h List.not_mem_nil
  · replace h : t ∈ if _ then _ else _ := h
    split at h
    · exact Token.mem_of_mem_between ((List.dropWhile_suffix _).mem (List.mem_of_mem_tail h))
    · exact absurd h List.not_mem_nil

theorem BaseClause.mem_of_mem_name {t : Token} {ts : List Token} {b : BaseClause}
    (hb : b ∈ ofTokens ts) (h : t ∈ b.name) : t ∈ ts := by
  obtain ⟨group, hgroup, hread⟩ := List.mem_filterMap.mp hb
  simp only [ofGroup?, Option.ite_none_left_eq_some, Option.some.injEq] at hread
  obtain ⟨-, rfl⟩ := hread
  exact Token.mem_of_mem_splitAt (List.mem_of_mem_filter hgroup) ((List.dropWhile_suffix _).mem h)

/-! ### Places of a configuration -/

namespace Configuration

variable {c : Configuration}

/-- A place is that of a token, or the one that is not known. -/
def Located (c : Configuration) (l : Location) : Prop := l = {} ∨ ∃ t ∈ c.tokens, l = t.location

theorem located_locationOf {t? : Option Token} (h : ∀ t ∈ t?, t ∈ c.tokens) :
    c.Located (Token.locationOf t?) := by
  cases t? with
  | none => exact .inl rfl
  | some t => exact .inr ⟨t, h t rfl, rfl⟩

theorem located_token? (c : Configuration) (i : Option Nat) :
    c.Located (Token.locationOf (c.token? i)) := by
  refine located_locationOf fun t ht => ?_
  obtain ⟨_, -, ht⟩ := Option.bind_eq_some_iff.mp ht
  exact List.mem_of_getElem? ht

end Configuration

/-- Everything that a record locates is located in a configuration. -/
structure Record.LocatedIn (c : Configuration) (r : Record τ) : Prop where
  site : c.Located r.site
  ctors : ∀ d ∈ r.ctors, c.Located d.location
  bases : ∀ b ∈ r.bases, c.Located b.location
  fields : ∀ f ∈ r.fields, c.Located f.location

namespace Configuration

variable {c : Configuration} {t : CppType}

/-- Constructors that the language adds are located where the record is named. -/
theorem located_ctorsOf {s : Scope} {named : Location} (hnamed : c.Located named) {d : Ctor}
    (hd : d ∈ c.ctorsOf s named) : c.Located d.location := by
  obtain ⟨declared, added, hctors, hdeclared, hadded⟩ := c.ctorsOf_eq_append s named
  rcases List.mem_append.mp (hctors ▸ hd) with hd | hd
  · obtain ⟨f, -, hf⟩ := exists_of_mem_forall₂ hdeclared hd
    rw [hf.location]
    exact c.located_token? _
  · rw [hadded d hd]
    exact hnamed

/-- The definition in a body is located in the configuration. -/
theorem locatedIn_outline {i : Nat} {o : Record Resolution} (ho : c.outline? i = some o) :
    o.LocatedIn c := by
  obtain ⟨s, body, -, -, rfl⟩ := outline?_eq_some_iff.mp ho
  exact {
    site := c.located_token? _
    ctors := fun d hd => located_ctorsOf (c.located_token? _) hd
    bases := List.forall_mem_map.mpr fun b hb => located_locationOf fun t ht =>
      ClassHead.mem_of_mem_bases (BaseClause.mem_of_mem_name hb (List.mem_of_mem_head? ht))
    fields := List.forall_mem_map.mpr fun v _ => c.located_token? _ }

/-- A definition is located where its outline is. -/
theorem BuiltFrom.locatedIn {i : Nat} {r : Record CppType} (h : c.BuiltFrom i r) :
    r.LocatedIn c := by
  obtain ⟨o, ho, hr, hbases, hfields⟩ := h.exists_outline
  have houtline := locatedIn_outline ho
  exact {
    site := by
      rw [hr]
      exact houtline.site
    ctors := by
      rw [hr]
      exact houtline.ctors
    bases := by
      intro b hb
      obtain ⟨b', hb', hmade⟩ := exists_of_mem_forall₂ hbases hb
      rw [hmade]
      exact houtline.bases b' hb'
    fields := by
      intro f hf
      obtain ⟨f', hf', hmade⟩ := exists_of_mem_forall₂ hfields hf
      rw [hmade]
      exact houtline.fields f' hf' }

theorem Grounded.locatedIn (h : c.Grounded t) {r : Record CppType} (hr : t.definition = some r) :
    r.LocatedIn c := by
  cases h with
  | plain hnone => cases hr.symm.trans hnone
  | built hbuilt _ _ =>
    cases hr
    exact hbuilt.locatedIn

end Configuration

/-! ### Explanations -/

/-- What a record blames is located where the record is. -/
theorem Record.LocatedIn.blamed {c : Configuration} {r : Record CppType} (h : r.LocatedIn c)
    {b : Blamed} (hb : r.Blames b) : c.Located b.location := by
  cases b with
  | ctor name location =>
    obtain ⟨d, hd, -, -, -, -, rfl⟩ := hb
    exact h.ctors d hd
  | field name location type =>
    obtain ⟨before, f, after, hfields, -, rfl, -⟩ := hb
    exact h.fields f (by simp [hfields])
  | base location type =>
    obtain ⟨-, before, b, after, hbases, rfl, -⟩ := hb
    exact h.bases b (by simp [hbases])

namespace Configuration.Grounded

variable {c : Configuration} {t : CppType}

/-- The first cause of a type is located in the configuration, and the search goes on in a type that
was built from it too. -/
theorem of_cause? (h : c.Grounded t) {step : CauseStep} (hstep : t.cause? = some step) :
    (c.Located step.site ∧ c.Located step.blamed.location) ∧
      ∀ u, step.blamed.type? = some u → c.Grounded u := by
  obtain ⟨r, hr, hcause, hblames⟩ := CppType.exists_blames_of_cause? hstep
  have hlocated := h.locatedIn hr
  obtain ⟨b, -, rfl⟩ := Option.map_eq_some_iff.mp hcause
  refine ⟨⟨hlocated.site, hlocated.blamed hblames⟩, fun u hu => h.of_mentions ⟨r, hr, ?_⟩⟩
  exact (hblames.exists_part hu).symm

/-- **All steps of an explanation are located in the configuration.** -/
theorem located_trace (h : c.Grounded t) (further : Nat) :
    ∀ step ∈ t.trace further, c.Located step.site ∧ c.Located step.blamed.location := by
  induction further generalizing t with
  | zero =>
    intro step hstep
    exact (h.of_cause? (Option.mem_toList.mp hstep)).1
  | succ further ih =>
    intro step hstep
    rw [CppType.trace] at hstep
    split at hstep
    · exact absurd hstep List.not_mem_nil
    · next first hfirst =>
      obtain ⟨hlocated, hbelow⟩ := h.of_cause? hfirst
      rcases List.mem_cons.mp hstep with rfl | hstep
      · exact hlocated
      · cases hu : first.blamed.type? with
        | none =>
          rw [hu] at hstep
          exact absurd hstep List.not_mem_nil
        | some u =>
          rw [hu] at hstep
          exact ih (hbelow u hu) step hstep

end Configuration.Grounded

/-! ### Diagnostics -/

/-- All places to which a diagnostic points: its own and those of its notes. -/
def Diagnostic.locations (d : Diagnostic) : List Location := d.location :: d.notes.map (·.location)

namespace ContainerSite

variable {c : Configuration} {containers : List String} {site : ContainerSite}

/-- A site lies where the name of a container stands. -/
theorem located_of_mem (h : site ∈ (c.containerSites containers []).1) :
    c.Located site.location := by
  have hlocation : site.location ∈ (ContainerUse.all c.tokens containers).map (·.location) := by
    rw [← c.locationsOf_eq containers []]
    exact List.mem_map_of_mem h
  obtain ⟨i, u, hu, hsame⟩ := ContainerUse.mem_location_all.mp hlocation
  rw [← hsame, (ContainerUse.isAt_of_at? hu).location]
  exact c.located_token? (some i)

/-- The diagnostic of a site points to places of the configuration. -/
theorem located_diagnostic (hsite : c.Located site.location) (helement : c.Grounded site.element)
    (maxDepth : Int) : ∀ l ∈ (site.diagnostic maxDepth).locations, c.Located l := by
  refine List.forall_mem_cons.mpr ⟨hsite, List.forall_mem_map.mpr fun note hnote => ?_⟩
  replace hnote : note ∈ Finding.notes _ := hnote
  rw [Finding.notes] at hnote
  split at hnote
  · -- without an explanation the one note is about the definition of the element
    obtain ⟨r, hr, rfl⟩ := Option.map_eq_some_iff.mp (Option.mem_toList.mp hnote)
    exact (helement.locatedIn hr).site
  · obtain ⟨step, hstep, hnote⟩ := List.mem_flatMap.mp hnote
    obtain ⟨hdefined, hblamed⟩ := helement.located_trace _ step hstep
    rcases List.mem_pair.mp hnote with rfl | rfl
    · exact hdefined
    · rw [Blamed.location_note]
      exact hblamed

end ContainerSite

namespace Runner

variable {options : Value} {settings : Settings}

theorem located_of_mem_produced {c : Configuration} {d : Diagnostic}
    (h : d ∈ produced options c growthChecker) : ∀ l ∈ d.locations, c.Located l := by
  cases hsettings : Settings.ofOptions options with
  | error failure =>
    simp only [produced, growthChecker, GrowthChecker.inspect, hsettings] at h
    cases h
  | ok settings =>
    simp only [produced, growthChecker, GrowthChecker.inspect, hsettings] at h
    obtain ⟨site, hsite, hdiagnose⟩ := List.mem_filterMap.mp h
    rw [ContainerSite.diagnose?_eq] at hdiagnose
    split at hdiagnose
    · cases hdiagnose
      have helement : c.Grounded site.element :=
        (Configuration.AnswersWith.search settings.containers hsite).grounded .start
      exact ContainerSite.located_diagnostic (ContainerSite.located_of_mem hsite) helement _
    · cases hdiagnose

/-- **Every place to which the standard checkers point** under valid options is a place of one of
the configurations. -/
theorem located_of_mem_reported (hsettings : Settings.ofOptions options = .ok settings)
    {hidden : Diagnostic → Bool} {cs : List Configuration} {d : Diagnostic}
    (h : d ∈ ({ options } : Runner).reported none hidden cs) :
    ∃ c ∈ cs, ∀ l ∈ d.locations, c.Located l := by
  obtain ⟨c, hc, checker, hchecker, h⟩ := exists_checker_of_mem_reported h
  obtain rfl : checker = growthChecker := List.mem_singleton.mp hchecker
  rw [complaint_growthChecker hsettings, or_iff_left List.not_mem_nil] at h
  exact ⟨c, hc, located_of_mem_produced h⟩

end Runner

end GrowthAudit
