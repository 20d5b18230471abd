import GrowthAudit.Dump.ContainerUse
import GrowthAudit.Settings
import Mathlib.Data.List.Basic

/-!
# Names of containers

Where the name of a container stands depends on that name alone, and so one would like that the uses
of several containers are those of each one together.  But a token is compared with one name only:
of the names with its text as their last component the last one in the list.  The others are found
where that one stands, too, and are lost elsewhere.

* `ContainerUse.Stands`: what it takes for a name to stand at a position.
* `ContainerUse.at?_eq_some_iff`: a use is found where the name stands that is looked for.
* `ContainerUse.NoneLost`: the name that is looked for in place of another one is an end of it.
* `Configuration.noneLost_iff_locations`: this is what it takes for lists of containers to compose.

That the condition is necessary is shown by the tokens that spell a lost name
(`ContainerUse.spelled`).
-/

namespace GrowthAudit

theorem Memo.map_traverse {f : α → Memo → β × Memo} {g : β → γ} {h : α → γ}
    (hf : ∀ a memo, g (f a memo).1 = h a) (as : List α) (memo : Memo) :
    (Memo.traverse f as memo).1.map g = as.map h := by
  induction as generalizing memo with
  | nil => rfl
  | cons a as ih =>
    rw [Memo.traverse, List.map_cons, List.map_cons, hf]
    exact congrArg (h a :: ·) (ih _)

namespace ContainerUse

/-! ### Where a name stands -/

/-- The last component of a name is at the position, behind the qualifiers of the name and in front
of template arguments, the first of which is not empty. -/
structure Stands (ts : List Token) (name : String) (i : Nat) (element : List Token) : Prop where
  inside : i < ts.length
  text : Token.textOf ts[i]? = (nameParts name).1
  qualifiers : followsQualifiers (nameParts name).2 (ts.take i).reverse = true
  bracket : Token.textOf ts[i + 1]? = "<"
  argument : firstArgument? 0 (Token.between ts (i + 1) (ts[i + 1]?.bind (·.link))) = some element
  nonempty : element ≠ []

theorem Stands.exists_bracket {ts : List Token} {name : String} {i : Nat} {element : List Token}
    (h : Stands ts name i element) : ∃ b, ts[i + 1]? = some b ∧ b.text = "<" := by
  have hbracket := h.bracket
  cases hb : ts[i + 1]? with
  | none =>
    rw [hb] at hbracket
    exact absurd hbracket (by decide)
  | some b =>
    rw [hb] at hbracket
    exact ⟨b, rfl, hbracket⟩

theorem text_of_named? {names : List String} {last n : String} (h : named? names last = some n) :
    (nameParts n).1 = last := by
  have hfound := List.find?_some h
  exact beq_iff_eq.mp hfound

theorem mem_of_named? {names : List String} {last n : String} (h : named? names last = some n) :
    n ∈ names :=
  List.mem_reverse.mp (List.mem_of_find?_eq_some h)

theorem named?_singleton (n : String) : named? [n] (nameParts n).1 = some n := by
  rw [named?, List.reverse_singleton, List.find?_singleton, if_pos (beq_self_eq_true _)]

/-- What is checked for a use, in the order of the checks. -/
theorem at?_eq_some {ts : List Token} {names : List String} {i : Nat} {u : ContainerUse} :
    at? ts names i = some u ↔
      ∃ t n b e, ts[i]? = some t ∧ named? names t.text = some n ∧ ts[i + 1]? = some b ∧
        followsQualifiers (nameParts n).2 (ts.take i).reverse = true ∧ b.text = "<" ∧
        firstArgument? 0 (Token.between ts (i + 1) b.link) = some e ∧ e ≠ [] ∧
        u = ⟨n, e, t.location⟩ := by
  simp [at?, Option.bind_eq_some_iff, and_assoc, eq_comm (a := u)]

/-- A use is found where the name stands that is looked for. -/
theorem at?_eq_some_iff {ts : List Token} {names : List String} {i : Nat} {u : ContainerUse} :
    at? ts names i = some u ↔
      named? names (Token.textOf ts[i]?) = some u.container ∧ Stands ts u.container i u.element ∧
        u.location = Token.locationOf ts[i]? := by
  rw [at?_eq_some]
  constructor
  · rintro ⟨t, n, b, e, ht, hn, hb, hqualifiers, htext, he, hne, rfl⟩
    have hlen := (List.getElem?_eq_some_iff.mp ht).1
    rw [ht]
    refine ⟨hn, ⟨hlen, ?_, hqualifiers, ?_, ?_, hne⟩, rfl⟩
    · rw [ht, text_of_named? hn]
      rfl
    · rw [hb]
      exact htext
    · rw [hb]
      exact he
  · rintro ⟨hn, hstands, hl⟩
    obtain ⟨b, hb, htext⟩ := hstands.exists_bracket
    have ht := List.getElem?_eq_getElem hstands.inside
    have hargument := hstands.argument
    rw [hb] at hargument
    rw [ht] at hn hl
    exact ⟨_, _, b, _, ht, hn, hb, hstands.qualifiers, htext, hargument, hstands.nonempty,
      congrArg (ContainerUse.mk u.container u.element) hl⟩

/-- A use of a single container is found wherever its name stands. -/
theorem at?_singleton {ts : List Token} {n : String} {i : Nat} {element : List Token}
    (h : Stands ts n i element) :
    at? ts [n] i = some ⟨n, element, Token.locationOf ts[i]?⟩ := by
  refine at?_eq_some_iff.mpr ⟨?_, h, rfl⟩
  rw [h.text]
  exact named?_singleton n

/-! ### Locations of uses -/

theorem mem_location_distinct {l : Location} (seen : List Location) (us : List ContainerUse) :
    l ∈ (distinct seen us).map (·.location) ↔ l ∉ seen ∧ ∃ u ∈ us, u.location = l := by
  induction us generalizing seen with
  | nil => simp [distinct]
  | cons u us ih =>
    rw [distinct]
    by_cases hu : u.location ∈ seen
    · rw [if_pos (by simpa using hu), ih]
      refine and_congr_right fun hl => ?_
      have hne : u.location ≠ l := by
        rintro rfl
        exact hl hu
      simp [hne]
    · rw [if_neg (by simpa using hu), List.map_cons, List.mem_cons, ih]
      by_cases hl : u.location = l
      · subst hl
        simp [hu]
      · have hne : l ≠ u.location := fun h => hl h.symm
        simp [hl, hne]

theorem mem_location_all {l : Location} {ts : List Token} {containers : List String} :
    l ∈ (all ts containers).map (·.location) ↔
      ∃ i u, at? ts (containers.map Text.unrooted) i = some u ∧ u.location = l := by
  rw [all, mem_location_distinct]
  constructor
  · rintro ⟨-, u, hu, hl⟩
    obtain ⟨i, -, hi⟩ := List.mem_filterMap.mp hu
    exact ⟨i, u, hi, hl⟩
  · rintro ⟨i, u, hi, hl⟩
    have hlen := (at?_eq_some_iff.mp hi).2.1.inside
    exact ⟨List.not_mem_nil, u, List.mem_filterMap.mpr ⟨i, List.mem_range.mpr hlen, hi⟩, hl⟩

/-! ### Lost names -/

/-- Every name is found where it stands: the name that is looked for in its place consists of its
last components. -/
def NoneLost (names : List String) : Prop :=
  ∀ n ∈ names, ∃ w, named? names (nameParts n).1 = some w ∧ (nameParts w).2 <+: (nameParts n).2

/-- No name is lost among names that differ in their last components. -/
theorem noneLost_of_last {names : List String}
    (h : ∀ n ∈ names, ∀ m ∈ names, (nameParts n).1 = (nameParts m).1 → n = m) :
    NoneLost names := by
  intro n hn
  cases hw : named? names (nameParts n).1 with
  | none =>
    have hnone := List.find?_eq_none.mp hw n (List.mem_reverse.mpr hn)
    exact absurd (beq_self_eq_true _) hnone
  | some w =>
    obtain rfl := h w (mem_of_named? hw) n hn (text_of_named? hw)
    exact ⟨w, rfl, List.prefix_rfl⟩

theorem followsQualifiers_of_prefix {qs qs' : List String} {before : List Token} (h : qs <+: qs')
    (hqs : followsQualifiers qs' before = true) : followsQualifiers qs before = true := by
  induction qs generalizing qs' before with
  | nil => rfl
  | cons q qs ih =>
    obtain ⟨rest, rfl⟩ := h
    rw [List.cons_append, followsQualifiers, Bool.and_eq_true] at hqs
    rw [followsQualifiers, Bool.and_eq_true]
    exact ⟨hqs.1, ih (List.prefix_append qs rest) hqs.2⟩

/-- A name stands where a longer one does. -/
theorem Stands.of_prefix {ts : List Token} {n w : String} {i : Nat} {element : List Token}
    (h : Stands ts n i element) (hlast : (nameParts w).1 = (nameParts n).1)
    (hends : (nameParts w).2 <+: (nameParts n).2) : Stands ts w i element :=
  { h with
    text := h.text.trans hlast.symm
    qualifiers := followsQualifiers_of_prefix hends h.qualifiers }

/-- Where no name is lost, a use is found wherever one of the names stands. -/
theorem NoneLost.at?_of_stands {names : List String} (hnames : NoneLost names) {ts : List Token}
    {n : String} (hn : n ∈ names) {i : Nat} {element : List Token} (h : Stands ts n i element) :
    ∃ w, at? ts names i = some ⟨w, element, Token.locationOf ts[i]?⟩ := by
  obtain ⟨w, hw, hends⟩ := hnames n hn
  refine ⟨w, at?_eq_some_iff.mpr ⟨?_, h.of_prefix (text_of_named? hw) hends, rfl⟩⟩
  rw [h.text]
  exact hw

/-- The tokens in front of the last component of a name, the nearest first. -/
def front (qualifiers : List String) : List Token :=
  qualifiers.flatMap fun q => [{ text := "::" }, { text := q }]

theorem followsQualifiers_front {qs qualifiers : List String} :
    followsQualifiers qs (front qualifiers) = true ↔ qs <+: qualifiers := by
  induction qs generalizing qualifiers with
  | nil => simp [followsQualifiers]
  | cons q qs ih =>
    cases qualifiers with
    | nil => simp [followsQualifiers, front, Token.textOf]
    | cons p ps =>
      have hfront : front (p :: ps) = { text := "::" } :: { text := p } :: front ps := rfl
      rw [hfront, followsQualifiers, Bool.and_eq_true, List.cons_prefix_cons, ← ih]
      refine and_congr ?_ Iff.rfl
      show ("::" == "::" && p == q) = true ↔ q = p
      rw [beq_self_eq_true, Bool.true_and, beq_iff_eq, eq_comm]

/-- The place of the use in `spelled`. -/
def spelledLocation : Location := ⟨"a.cpp", 1, 1⟩

/-- The tokens of a container of integers, of which only the last component of the name has a
location. -/
def spelled (name : String) : List Token :=
  (front (nameParts name).2).reverse ++
    [{ text := (nameParts name).1, location := spelledLocation }, { text := "<" }, { text := "int" }]

/-- The position of the last component in `spelled`. -/
def spelledPosition (name : String) : Nat := (front (nameParts name).2).length

theorem take_spelled (name : String) :
    ((spelled name).take (spelledPosition name)).reverse = front (nameParts name).2 := by
  rw [spelled, spelledPosition, ← List.length_reverse, List.take_left', List.reverse_reverse]
  rfl

theorem getElem?_spelled (name : String) (k : Nat) :
    (spelled name)[spelledPosition name + k]? =
      [{ text := (nameParts name).1, location := spelledLocation }, { text := "<" },
        { text := "int" }][k]? := by
  rw [spelled, spelledPosition, ← List.length_reverse, List.getElem?_append_right (by omega),
    Nat.add_sub_cancel_left]

theorem stands_spelled (name : String) :
    Stands (spelled name) name (spelledPosition name) [{ text := "int" }] where
  inside := by simp [spelled, spelledPosition]
  text := by
    rw [← Nat.add_zero (spelledPosition name), getElem?_spelled]
    rfl
  qualifiers := by
    rw [take_spelled]
    exact followsQualifiers_front.mpr List.prefix_rfl
  bracket := by
    rw [getElem?_spelled]
    rfl
  argument := by
    have hdrop : (spelled name).drop (spelledPosition name + 1 + 1) = [{ text := "int" }] := by
      rw [spelled, spelledPosition, ← List.length_reverse, Nat.add_assoc,
        List.drop_length_add_append]
      rfl
    rw [getElem?_spelled]
    show firstArgument? 0 ((spelled name).drop (spelledPosition name + 1 + 1)) = _
    rw [hdrop]
    decide
  nonempty := List.cons_ne_nil _ _

theorem locationOf_spelled (name : String) :
    Token.locationOf (spelled name)[spelledPosition name]? = spelledLocation := by
  rw [← Nat.add_zero (spelledPosition name), getElem?_spelled]
  rfl

theorem eq_spelledPosition {name : String} {i : Nat}
    (h : Token.locationOf (spelled name)[i]? = spelledLocation) : i = spelledPosition name := by
  have hunknown : Token.locationOf none ≠ spelledLocation := by decide
  rcases Nat.lt_trichotomy i (spelledPosition name) with hlt | rfl | hgt
  · -- the tokens in front have no location
    have hlen : i < (front (nameParts name).2).reverse.length := by rwa [List.length_reverse]
    rw [spelled, List.getElem?_append_left hlen, List.getElem?_eq_getElem hlen] at h
    have hmem := List.mem_reverse.mp (List.getElem_mem hlen)
    obtain ⟨q, -, hq⟩ := List.mem_flatMap.mp hmem
    refine absurd h ?_
    rcases List.mem_pair.mp hq with hq | hq <;> rw [hq] <;> exact hunknown
  · rfl
  · obtain ⟨k, rfl⟩ := Nat.exists_eq_add_of_lt hgt
    rw [Nat.add_assoc, getElem?_spelled] at h
    match k with
    | 0 | 1 | _ + 2 => exact absurd h hunknown

/-- A use of a list of names that is found at the place of a lost name would be one of the name that
is looked for. -/
theorem noneLost_of_spelled {names : List String}
    (h : ∀ n ∈ names, ∃ i u, at? (spelled n) names i = some u ∧ u.location = spelledLocation) :
    NoneLost names := by
  intro n hn
  obtain ⟨i, u, hu, hl⟩ := h n hn
  obtain ⟨hnamed, hstands, hlocation⟩ := at?_eq_some_iff.mp hu
  obtain rfl := eq_spelledPosition (hlocation.symm.trans hl)
  rw [(stands_spelled n).text] at hnamed
  refine ⟨u.container, hnamed, ?_⟩
  rw [← followsQualifiers_front, ← take_spelled]
  exact hstands.qualifiers

end ContainerUse

namespace Configuration

open ContainerUse

/-- The locations at which uses of the containers are found. -/
def locationsOf (c : Configuration) (containers : List String) (memo : Memo) : List Location :=
  (c.containerSites containers memo).1.map (·.location)

/-- What is remembered has no bearing on where containers are used. -/
theorem locationsOf_eq (c : Configuration) (containers : List String) (memo : Memo) :
    c.locationsOf containers memo = (all c.tokens containers).map (·.location) := by
  rw [locationsOf, containerSites]
  refine Memo.map_traverse (fun u m => ?_) _ memo
  rfl

/-- **Lists of containers compose iff no name is lost**: then, and only then, the uses of the
containers are found at the locations where those of each one are. -/
theorem noneLost_iff_locations (containers : List String) :
    NoneLost (containers.map Text.unrooted) ↔
      ∀ (c : Configuration) (memo memo' : Memo) (l : Location),
        l ∈ c.locationsOf containers memo ↔ ∃ n ∈ containers, l ∈ c.locationsOf [n] memo' := by
  simp only [locationsOf_eq, mem_location_all, List.map_singleton]
  constructor
  · intro hnames c _ _ l
    constructor
    · rintro ⟨i, u, hu, hl⟩
      obtain ⟨hnamed, hstands, hlocation⟩ := at?_eq_some_iff.mp hu
      obtain ⟨n, hn, hun⟩ := List.mem_map.mp (mem_of_named? hnamed)
      rw [← hun] at hstands
      exact ⟨n, hn, i, _, at?_singleton hstands, hlocation.symm.trans hl⟩
    · rintro ⟨n, hn, i, u, hu, hl⟩
      obtain ⟨hnamed, hstands, hlocation⟩ := at?_eq_some_iff.mp hu
      rw [List.mem_singleton.mp (mem_of_named? hnamed)] at hstands
      obtain ⟨w, hw⟩ := hnames.at?_of_stands (List.mem_map_of_mem hn) hstands
      exact ⟨i, _, hw, hlocation.symm.trans hl⟩
  · intro h
    refine noneLost_of_spelled fun m hm => ?_
    obtain ⟨n, hn, rfl⟩ := List.mem_map.mp hm
    have hu := at?_singleton (stands_spelled (Text.unrooted n))
    rw [locationOf_spelled] at hu
    exact (h { tokens := spelled (Text.unrooted n) } [] [] spelledLocation).mpr
      ⟨n, hn, _, _, hu, rfl⟩

/-- In front of `my::vector` in a list the name `std::vector` is lost: it stands among these tokens,
and is found only where it is the one container that is configured. -/
theorem lost_vector_sample :
    Settings.containerNames [.str "std::vector", .str "my::vector"] =
        .ok ["std::vector", "my::vector"] ∧
      ¬ ∀ l, l ∈ ({ tokens := spelled "std::vector" } : Configuration).locationsOf
            ["std::vector", "my::vector"] [] ↔
          ∃ n ∈ ["std::vector", "my::vector"],
            l ∈ ({ tokens := spelled "std::vector" } : Configuration).locationsOf [n] [] := by
  refine ⟨rfl, fun h => ?_⟩
  have hfound : spelledLocation ∈
      ({ tokens := spelled "std::vector" } : Configuration).locationsOf ["std::vector"] [] := by
    decide +kernel
  have hlost : spelledLocation ∉ ({ tokens := spelled "std::vector" } : Configuration).locationsOf
      ["std::vector", "my::vector"] [] := by
    decide +kernel
  exact hlost ((h spelledLocation).mpr ⟨"std::vector", List.mem_cons_self, hfound⟩)

end Configuration

end GrowthAudit
