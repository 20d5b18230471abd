import GrowthAudit.Proofs.Run.Depth
import GrowthAudit.Proofs.Run.Statistics
import Mathlib.Data.List.TakeWhile

/-!
# Options that are accepted

Settings can be written down as options again.  Reading these should give the same settings, and it
does unless a name of a container has been read from a hollow text: white space is dropped first and
colons after it, so a text of colons leaves an empty name, and white space behind colons is left in
front of a name.

* `Settings.CleanName`, `Settings.nameOf?_eq_self_iff`: the names that reading leaves as they are.
* `Settings.Hollow`, `Settings.cleanName_iff_not_hollow`: the texts that leave another name.
* `Settings.mem_containers_iff`: the containers of accepted options are the names that their texts
  leave.
* `Settings.ofOptions_toOptions_iff`: reading settings again gives the same iff their names are
  clean.
* `Settings.accepted_settled_iff`: **accepted options are settled iff no hollow text is among
  them.**
* `Settings.hollow_unsettled`: a single colon is accepted, and its settings are refused.
-/

namespace GrowthAudit

namespace Settings

/-! ### Names -/

/-- The name is not empty, has no white space around it and no colon in front. -/
structure CleanName (name : String) : Prop where
  nonempty : name.toList ≠ []
  colonless : ∀ c ∈ name.toList.head?, c ≠ ':'
  front : ∀ c ∈ name.toList.head?, Text.isBlank c = false
  back : ∀ c ∈ name.toList.getLast?, Text.isBlank c = false

/-- The text is not blank, but behind the colons that it starts with there is nothing or white
space. -/
def Hollow (s : String) : Prop :=
  Text.trim s.toList ≠ [] ∧
    ∀ c ∈ ((Text.trim s.toList).dropWhile (· = ':')).head?, Text.isBlank c = true

-- the instance is named, for there is another one that runs through all characters
instance (s : String) : Decidable (Hollow s) :=
  @instDecidableAnd _ _ inferInstance (Option.decidableForallMem _)

/-- The name that a text leaves, `none` if it is blank. -/
def nameOf? (s : String) : Option String :=
  if (Text.trim s.toList).isEmpty then none
  else some (Text.unrooted (String.ofList (Text.trim s.toList)))

theorem nameOf?_eq_some_iff {s name : String} :
    nameOf? s = some name ↔
      Text.trim s.toList ≠ [] ∧ name.toList = (Text.trim s.toList).dropWhile (· = ':') := by
  have hunrooted : ∀ cs : List Char, Text.unrooted (String.ofList cs) = name ↔
      name.toList = cs.dropWhile (· = ':') := by
    intro cs
    rw [Text.unrooted, String.toList_ofList, ← String.toList_inj, String.toList_ofList, eq_comm]
  rw [nameOf?]
  by_cases hblank : Text.trim s.toList = []
  · simp [hblank]
  · simp [hblank, hunrooted]

/-- **Clean names are those that reading leaves as they are.** -/
theorem nameOf?_eq_self_iff {name : String} : nameOf? name = some name ↔ CleanName name := by
  rw [nameOf?_eq_some_iff]
  constructor
  · rintro ⟨hne, hsame⟩
    -- both steps only drop characters, so neither has dropped any
    have hlength := (List.dropWhile_suffix (l := Text.trim name.toList)
      (fun c => decide (c = ':'))).length_le
    rw [← hsame] at hlength
    have htrim : Text.trim name.toList = name.toList :=
      (Text.trim_sublist name.toList).eq_of_length_le hlength
    rw [htrim] at hne hsame
    refine ⟨hne, ?_, ?_, ?_⟩
    · intro c hc
      rw [hsame] at hc
      simpa using Text.eq_false_of_mem_head?_dropWhile hc
    · intro c hc
      rw [← htrim] at hc
      exact Text.isBlank_of_mem_head?_trim hc
    · intro c hc
      rw [← htrim] at hc
      exact Text.isBlank_of_mem_getLast?_trim hc
  · intro h
    rw [Text.trim_eq_self h.front h.back]
    refine ⟨h.nonempty, (List.dropWhile_eq_self_iff.mpr fun hlength => ?_).symm⟩
    simpa using h.colonless _ (List.head?_eq_getElem? ▸ List.getElem?_eq_getElem hlength)

/-- Every name that a text leaves starts with no colon. -/
theorem colonless_of_nameOf? {s name : String} (h : nameOf? s = some name) :
    ∀ c ∈ name.toList.head?, c ≠ ':' := by
  intro c hc
  rw [(nameOf?_eq_some_iff.mp h).2] at hc
  simpa using Text.eq_false_of_mem_head?_dropWhile hc

/-- Every name that a text leaves ends with no white space. -/
theorem back_of_nameOf? {s name : String} (h : nameOf? s = some name) :
    ∀ c ∈ name.toList.getLast?, Text.isBlank c = false := by
  intro c hc
  rw [(nameOf?_eq_some_iff.mp h).2] at hc
  obtain ⟨colons, hcolons⟩ : (Text.trim s.toList).dropWhile (· = ':') <:+ Text.trim s.toList :=
    List.dropWhile_suffix _
  have hlast : c ∈ (Text.trim s.toList).getLast? := by
    rw [← hcolons]
    exact List.mem_getLast?_append_of_mem_getLast? hc
  exact Text.isBlank_of_mem_getLast?_trim hlast

/-- **A text leaves a clean name unless it is hollow.** -/
theorem cleanName_iff_not_hollow {s name : String} (h : nameOf? s = some name) :
    CleanName name ↔ ¬ Hollow s := by
  obtain ⟨hne, hname⟩ := nameOf?_eq_some_iff.mp h
  rw [Hollow, ← hname]
  constructor
  · rintro hclean ⟨-, hblank⟩
    obtain ⟨c, hc⟩ := Option.isSome_iff_exists.mp (List.isSome_head?.mpr hclean.nonempty)
    have hnot := hclean.front c hc
    rw [hblank c hc] at hnot
    cases hnot
  · intro hnot
    have hvisible : ∃ c ∈ name.toList.head?, Text.isBlank c = false := by
      by_contra hnone
      refine hnot ⟨hne, fun c hc => ?_⟩
      by_contra hblank
      exact hnone ⟨c, hc, Bool.eq_false_iff.mpr hblank⟩
    obtain ⟨c, hc, hblank⟩ := hvisible
    refine ⟨?_, colonless_of_nameOf? h, ?_, back_of_nameOf? h⟩
    · intro hempty
      rw [hempty] at hc
      cases hc
    · intro d hd
      rwa [Option.mem_unique hd hc]

/-! ### Texts that options give -/

/-- The texts that the option for containers gives: itself, the texts in a list, or the keys of a
table. -/
inductive Lists : Value → String → Prop
  | alone {s : String} : Lists (.str s) s
  | item {items : List Value} {s : String} : .str s ∈ items → Lists (.list items) s
  | key {entries : List (String × Value)} {s : String} {v : Value} : (s, v) ∈ entries →
      Lists (.table entries) s

/-- The texts that options give for the names of containers. -/
def Given (options : Value) (s : String) : Prop :=
  ∃ v, options.get? "containers" = some v ∧ Lists v s

theorem lists_iff {v : Value} {items : List Value} (h : containerItems v = .ok items) (s : String) :
    Lists v s ↔ .str s ∈ items := by
  rw [containerItems.eq_def] at h
  split at h
  · cases h
    rw [List.mem_singleton]
    constructor
    · rintro ⟨⟩
      rfl
    · rintro ⟨⟩
      exact .alone
  · cases h
    constructor
    · rintro ⟨⟩
      assumption
    · exact .item
  · cases h
    rw [List.mem_map]
    constructor
    · rintro ⟨⟩
      next hmem => exact ⟨_, hmem, rfl⟩
    · rintro ⟨⟨_, _⟩, hmem, ⟨⟩⟩
      exact .key hmem
  · cases h

/-- An item leaves a name only if it is a text that does. -/
theorem containerName?_eq_some_iff {item : Value} {name : String} :
    containerName? item = .ok (some name) ↔ ∃ s, item = .str s ∧ nameOf? s = some name := by
  cases item with
  | str s =>
    have hread : containerName? (.str s) = .ok (nameOf? s) := rfl
    simp [hread]
  | _ =>
    simp only [containerName?]
    split <;> simp

/-- The names of items are what the texts among them leave. -/
theorem mem_containerNames_iff {items : List Value} {names : List String}
    (h : containerNames items = .ok names) (name : String) :
    name ∈ names ↔ ∃ s, .str s ∈ items ∧ nameOf? s = some name := by
  obtain ⟨read, hread, hnames⟩ := Outcome.of_bind_eq_ok h
  have hmem : some name ∈ read ↔ ∃ s, .str s ∈ items ∧ nameOf? s = some name := by
    clear h hnames
    induction items generalizing read with
    | nil =>
      cases hread
      simp
    | cons item items ih =>
      rw [List.mapM_cons] at hread
      obtain ⟨name?, hitem, hread⟩ := Outcome.of_bind_eq_ok hread
      obtain ⟨rest, hrest, hread⟩ := Outcome.of_bind_eq_ok hread
      cases hread
      have hhead : some name = name? ↔ ∃ s, item = .str s ∧ nameOf? s = some name := by
        rw [← containerName?_eq_some_iff, hitem, Except.ok.injEq, eq_comm]
      simp only [List.mem_cons, hhead, ih rest hrest, or_and_right, exists_or,
        @eq_comm _ (Value.str _) item]
  split at hnames
  · cases hnames
  · cases hnames
    simpa using hmem

theorem ne_nil_of_containerNames {items : List Value} {names : List String}
    (h : containerNames items = .ok names) : names ≠ [] := by
  obtain ⟨read, -, hnames⟩ := Outcome.of_bind_eq_ok h
  split at hnames
  · cases hnames
  · next hne =>
    cases hnames
    exact hne

/-- What accepted options give: the depth and the containers, each by its default where it is not
given. -/
theorem of_ofOptions {options : Value} {settings : Settings}
    (h : ofOptions options = .ok settings) :
    (options.get? "max_depth").elim (.ok CppType.defaultDepth) depth = .ok settings.maxDepth ∧
      containersOf options = .ok settings.containers := by
  rw [ofOptions.eq_def] at h
  split at h
  · next hempty =>
    cases h
    have hnone : ∀ key, options.get? key = none := by
      intro key
      cases options with
      | table entries =>
        cases entries with
        | nil => rfl
        | cons e entries => simp [Value.isTruthy] at hempty
      | _ => rfl
    rw [containersOf, hnone, hnone]
    exact ⟨rfl, rfl⟩
  · split at h
    · obtain ⟨maxDepth, hdepth, h⟩ := Outcome.of_bind_eq_ok h
      obtain ⟨containers, hcontainers, h⟩ := Outcome.of_bind_eq_ok h
      cases h
      exact ⟨hdepth, hcontainers⟩
    · cases h

theorem one_le_maxDepth {options : Value} {settings : Settings}
    (h : ofOptions options = .ok settings) : 1 ≤ settings.maxDepth := by
  have hdepth := (of_ofOptions h).1
  obtain ⟨maxDepth, containers⟩ := settings
  cases hgiven : options.get? "max_depth" with
  | none =>
    rw [hgiven] at hdepth
    cases hdepth
    show (1 : Int) ≤ 3
    omega
  | some v =>
    rw [hgiven, Option.elim_some, depth.eq_def] at hdepth
    split at hdepth
    · split at hdepth
      · cases hdepth
      · cases hdepth
        omega
    · cases hdepth

/-- The containers of accepted options are the default one, or what is read from the items that are
given. -/
theorem containers_cases {options : Value} {settings : Settings}
    (h : ofOptions options = .ok settings) :
    (options.get? "containers" = none ∧ settings.containers = [defaultContainer]) ∨
      ∃ v items, options.get? "containers" = some v ∧ containerItems v = .ok items ∧
        containerNames items = .ok settings.containers := by
  have hcontainers := (of_ofOptions h).2
  rw [containersOf] at hcontainers
  cases hgiven : options.get? "containers" with
  | none =>
    rw [hgiven] at hcontainers
    exact .inl ⟨rfl, (Except.ok.inj hcontainers).symm⟩
  | some v =>
    rw [hgiven, Option.elim_some] at hcontainers
    obtain ⟨items, hitems, hnames⟩ := Outcome.of_bind_eq_ok hcontainers
    exact .inr ⟨v, items, rfl, hitems, hnames⟩

/-- **The containers of accepted options** are the default one, or the names that the given texts
leave. -/
theorem mem_containers_iff {options : Value} {settings : Settings}
    (h : ofOptions options = .ok settings) (name : String) :
    name ∈ settings.containers ↔
      (options.get? "containers" = none ∧ name = defaultContainer) ∨
        ∃ s, Given options s ∧ nameOf? s = some name := by
  rcases containers_cases h with ⟨hnone, hdefault⟩ | ⟨v, items, hgiven, hitems, hnames⟩
  · simp [Given, hnone, hdefault]
  · simp [Given, hgiven, mem_containerNames_iff hnames, lists_iff hitems]

theorem containers_ne_nil {options : Value} {settings : Settings}
    (h : ofOptions options = .ok settings) : settings.containers ≠ [] := by
  rcases containers_cases h with ⟨-, hdefault⟩ | ⟨v, items, -, -, hnames⟩
  · rw [hdefault]
    exact List.cons_ne_nil _ _
  · exact ne_nil_of_containerNames hnames

/-! ### Reading settings again -/

/-- The settings as options. -/
def toOptions (settings : Settings) : Value :=
  .table [("max_depth", .int settings.maxDepth),
    ("containers", .list (settings.containers.map .str))]

theorem mapM_containerName?_str (names : List String) :
    (names.map .str).mapM containerName? = .ok (names.map nameOf?) := by
  induction names with
  | nil => rfl
  | cons name names ih =>
    have hread : containerName? (.str name) = .ok (nameOf? name) := rfl
    rw [List.map_cons, List.mapM_cons, hread, ih]
    rfl

/-- A row of names is left as it is iff each of them is. -/
theorem filterMap_nameOf?_eq_self_iff (names : List String) :
    names.filterMap nameOf? = names ↔ ∀ name ∈ names, nameOf? name = some name := by
  induction names with
  | nil => simp
  | cons name names ih =>
    rw [List.forall_mem_cons, List.filterMap_cons]
    cases hname : nameOf? name with
    | none =>
      have hle := List.length_filterMap_le nameOf? names
      constructor
      · intro hsame
        have hlength : (names.filterMap nameOf?).length = names.length + 1 :=
          congrArg List.length hsame
        omega
      · rintro ⟨h, -⟩
        cases h
    | some left => simp [ih]

/-- **Reading settings again gives the same iff all names are clean.** -/
theorem ofOptions_toOptions_iff {settings : Settings} (hdepth : 1 ≤ settings.maxDepth)
    (hne : settings.containers ≠ []) :
    ofOptions settings.toOptions = .ok settings ↔ ∀ name ∈ settings.containers, CleanName name := by
  have hnames : containersOf settings.toOptions = containerNames (settings.containers.map .str) :=
    rfl
  obtain ⟨maxDepth, containers⟩ := settings
  rw [ofOptions_of_depth hdepth rfl, hnames, containerNames, mapM_containerName?_str]
  simp only [← nameOf?_eq_self_iff, ← filterMap_nameOf?_eq_self_iff]
  have hread : (containers.map nameOf?).filterMap (fun name => name) =
      containers.filterMap nameOf? := by
    rw [List.filterMap_map]
    rfl
  simp only [bind, Except.bind, hread]
  split
  · next hnil =>
    rw [hnil]
    constructor
    · intro h
      cases h
    · intro h
      exact absurd h.symm hne
  · simp [Except.map, pure, Except.pure]

/-- **Accepted options are settled iff no hollow text is among them.**  In any case the depth is at
least one, there is a container, and no name starts with a colon or ends with white space.  The
names are clean, and reading the settings again gives the same settings, iff no text that is given
for a container is hollow. -/
theorem accepted_settled_iff {options : Value} {settings : Settings}
    (h : ofOptions options = .ok settings) :
    1 ≤ settings.maxDepth ∧ settings.containers ≠ [] ∧
      (∀ name ∈ settings.containers, (∀ c ∈ name.toList.head?, c ≠ ':') ∧
        ∀ c ∈ name.toList.getLast?, Text.isBlank c = false) ∧
      ((∀ name ∈ settings.containers, CleanName name) ↔ ∀ s, Given options s → ¬ Hollow s) ∧
      (ofOptions settings.toOptions = .ok settings ↔ ∀ s, Given options s → ¬ Hollow s) := by
  have hdefault : nameOf? defaultContainer = some defaultContainer := by decide
  have hclean : (∀ name ∈ settings.containers, CleanName name) ↔
      ∀ s, Given options s → ¬ Hollow s := by
    constructor
    · intro hall s hs hhollow
      obtain ⟨name, hname⟩ : ∃ name, nameOf? s = some name :=
        ⟨_, nameOf?_eq_some_iff.mpr ⟨hhollow.1, String.toList_ofList⟩⟩
      have hmem := (mem_containers_iff h name).mpr (.inr ⟨s, hs, hname⟩)
      exact (cleanName_iff_not_hollow hname).mp (hall name hmem) hhollow
    · intro hnone name hmem
      rcases (mem_containers_iff h name).mp hmem with ⟨-, rfl⟩ | ⟨s, hs, hname⟩
      · exact nameOf?_eq_self_iff.mp hdefault
      · exact (cleanName_iff_not_hollow hname).mpr (hnone s hs)
  refine ⟨one_le_maxDepth h, containers_ne_nil h, ?_, hclean, ?_⟩
  · intro name hmem
    obtain ⟨s, hname⟩ : ∃ s, nameOf? s = some name := by
      rcases (mem_containers_iff h name).mp hmem with ⟨-, rfl⟩ | ⟨s, -, hname⟩
      · exact ⟨_, hdefault⟩
      · exact ⟨s, hname⟩
    exact ⟨colonless_of_nameOf? hname, back_of_nameOf? hname⟩
  · rw [ofOptions_toOptions_iff (one_le_maxDepth h) (containers_ne_nil h), hclean]

/-- Options that give a depth and texts for the names of containers. -/
def optionsSample (containers : List Value) : Value :=
  .table [("max_depth", .int 5), ("containers", .list containers)]

/-- White space around names, colons in front of them and blank texts are settled at once; white
space behind a colon is not. -/
theorem accepted_settled_iff_sample :
    ofOptions (optionsSample [.str " ::std::vector\t", .str "", .null, .str "llvm::SmallVector"]) =
        .ok ⟨5, ["std::vector", "llvm::SmallVector"]⟩ ∧
      ofOptions (toOptions ⟨5, ["std::vector", "llvm::SmallVector"]⟩) =
        .ok ⟨5, ["std::vector", "llvm::SmallVector"]⟩ ∧
      ofOptions (optionsSample [.str ":: std::vector"]) = .ok ⟨5, [" std::vector"]⟩ ∧
      ofOptions (toOptions ⟨5, [" std::vector"]⟩) ≠ .ok ⟨5, [" std::vector"]⟩ := by
  have hclean : ofOptions
      (optionsSample [.str " ::std::vector\t", .str "", .null, .str "llvm::SmallVector"]) =
        .ok ⟨5, ["std::vector", "llvm::SmallVector"]⟩ := by rfl
  have hhollow : ofOptions (optionsSample [.str ":: std::vector"]) = .ok ⟨5, [" std::vector"]⟩ := by
    rfl
  refine ⟨hclean, ?_, hhollow, ?_⟩
  · obtain ⟨-, -, -, -, hsettled⟩ := accepted_settled_iff hclean
    refine hsettled.mpr ?_
    rintro s ⟨v, hv, hs⟩
    cases hv
    cases hs with
    | item hs =>
      simp only [List.mem_cons, Value.str.injEq, reduceCtorEq, List.not_mem_nil, or_false,
        false_or] at hs
      rcases hs with rfl | rfl | rfl <;> decide
  · obtain ⟨-, -, -, -, hsettled⟩ := accepted_settled_iff hhollow
    intro hsame
    exact hsettled.mp hsame ":: std::vector" ⟨_, rfl, .item List.mem_cons_self⟩ (by decide)

/-- A single colon is accepted as the name of a container and leaves an empty name, which is
refused; white space behind a colon is kept, and dropped the next time. -/
theorem hollow_unsettled :
    ofOptions (.table [("containers", .list [.str ":"])]) = .ok ⟨3, [""]⟩ ∧
      ofOptions (toOptions ⟨3, [""]⟩) = .error (.audit .noContainers) ∧
      ofOptions (.table [("containers", .list [.str ": std::vector"])]) =
        .ok ⟨3, [" std::vector"]⟩ ∧
      ofOptions (toOptions ⟨3, [" std::vector"]⟩) = .ok ⟨3, ["std::vector"]⟩ ∧
      ¬ CleanName "" ∧ ¬ CleanName " std::vector" := by
  refine ⟨rfl, rfl, rfl, rfl, ?_, ?_⟩
  · intro h
    exact h.nonempty rfl
  · intro h
    exact absurd (h.front ' ' rfl) (by decide)

end Settings

end GrowthAudit
