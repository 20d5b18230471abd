import GrowthAudit.Proofs.Dump.Building
import GrowthAudit.Proofs.Dump.ContainerNames

/-!
# First uses

Two tokens may have the same location, for instance where a macro is expanded, and then only the
first of two uses counts.  This file says which uses are left, and in which order, without the scan
that leaves the others out.

* `ContainerUse.FirstUse`: a configured name stands at the position, and none does in front of it at
  the same location.
* `ContainerUse.exists_positions`: what is left of a row of uses are those at certain positions, in
  their order.
* `Configuration.SitesMet`: the sites are those of the first uses, each with the type that is built
  when its turn comes.  `Configuration.sitesMet_containerSites` is the statement, for lists in which
  no name is lost.
-/

namespace GrowthAudit

namespace ContainerUse

/-- One of the names stands at the position. -/
def UsedAt (ts : List Token) (names : List String) (i : Nat) : Prop :=
  ∃ n ∈ names, ∃ element, Stands ts n i element

/-- One of the names stands at the position, and none does in front of it at the same location. -/
def FirstUse (ts : List Token) (names : List String) (i : Nat) : Prop :=
  UsedAt ts names i ∧
    ∀ j < i, UsedAt ts names j → Token.locationOf ts[j]? ≠ Token.locationOf ts[i]?

/-- The use of one of the names at the position. -/
structure IsAt (ts : List Token) (names : List String) (i : Nat) (u : ContainerUse) : Prop where
  container : u.container ∈ names
  stands : Stands ts u.container i u.element
  location : u.location = Token.locationOf ts[i]?

theorem isAt_of_at? {ts : List Token} {names : List String} {i : Nat} {u : ContainerUse}
    (h : at? ts names i = some u) : IsAt ts names i u := by
  obtain ⟨hnamed, hstands, hlocation⟩ := at?_eq_some_iff.mp h
  exact ⟨mem_of_named? hnamed, hstands, hlocation⟩

theorem NoneLost.usedAt_iff {names : List String} (hnames : NoneLost names) {ts : List Token}
    {i : Nat} : UsedAt ts names i ↔ ∃ u, at? ts names i = some u := by
  constructor
  · rintro ⟨n, hn, element, h⟩
    obtain ⟨w, hw⟩ := hnames.at?_of_stands hn h
    exact ⟨_, hw⟩
  · rintro ⟨u, hu⟩
    have h := isAt_of_at? hu
    exact ⟨u.container, h.container, u.element, h.stands⟩

/-! ### What is left of a row of uses -/

theorem nodup_location_distinct (seen : List Location) (us : List ContainerUse) :
    ((distinct seen us).map (·.location)).Nodup := by
  induction us generalizing seen with
  | nil => exact List.nodup_nil
  | cons u us ih =>
    rw [distinct]
    split
    · exact ih seen
    · rw [List.map_cons, List.nodup_cons, mem_location_distinct]
      exact ⟨fun h => h.1 List.mem_cons_self, ih _⟩

/-- The position in a row has a use at a location that was not met before, neither in the row nor in
front of it. -/
def FirstIn (f : Nat → Option ContainerUse) (seen : List Location) (is : List Nat) (i : Nat) :
    Prop :=
  ∃ u, f i = some u ∧ u.location ∉ seen ∧
    ∀ j ∈ is, j < i → ∀ v, f j = some v → v.location ≠ u.location

section
variable {f : Nat → Option ContainerUse} {seen : List Location} {k i : Nat} {is : List Nat}

/-- A use that was met before leaves the later positions as they are. -/
theorem firstIn_cons_of_met (h : ∀ v, f k = some v → v.location ∈ seen) :
    FirstIn f seen (k :: is) i ↔ FirstIn f seen is i := by
  refine exists_congr fun u => and_congr_right fun _ => and_congr_right fun hu => ?_
  rw [List.forall_mem_cons, and_iff_right]
  intro _ v hv hl
  exact hu (hl ▸ h v hv)

/-- A use is met by all later positions. -/
theorem firstIn_cons {u : ContainerUse} (h : f k = some u) (hi : k < i) :
    FirstIn f seen (k :: is) i ↔ FirstIn f (u.location :: seen) is i := by
  refine exists_congr fun w => and_congr_right fun _ => ?_
  rw [List.forall_mem_cons, List.mem_cons, not_or, and_assoc, and_left_comm]
  refine and_congr ?_ Iff.rfl
  simp only [hi, h, Option.some.injEq, forall_const, forall_eq']
  exact ne_comm

theorem firstIn_head {u : ContainerUse} (h : f k = some u) (hu : u.location ∉ seen)
    (hk : ∀ j ∈ is, k < j) : FirstIn f seen (k :: is) k := by
  refine ⟨u, h, hu, fun j hj hjk => ?_⟩
  rcases List.mem_cons.mp hj with rfl | hj
  · omega
  · have := hk j hj
    omega

theorem not_firstIn_of_met (h : ∀ v, f i = some v → v.location ∈ seen) : ¬ FirstIn f seen is i :=
  fun ⟨u, hu, hseen, _⟩ => hseen (h u hu)

end

/-- **What is left of the uses at a row of positions** are those at some of them, in the same order:
the first ones at their locations. -/
theorem exists_positions {f : Nat → Option ContainerUse} {is : List Nat}
    (hsorted : is.Pairwise (· < ·)) (seen : List Location) :
    ∃ ps, ps.Sublist is ∧
      List.Forall₂ (fun i u => f i = some u) ps (distinct seen (is.filterMap f)) ∧
      ∀ i ∈ is, i ∈ ps ↔ FirstIn f seen is i := by
  induction is generalizing seen with
  | nil => exact ⟨[], .slnil, .nil, fun i hi => nomatch hi⟩
  | cons k is ih =>
    obtain ⟨hk, hsorted⟩ := List.pairwise_cons.mp hsorted
    have hne : ∀ i ∈ is, i ≠ k := fun i hi => Nat.ne_of_gt (hk i hi)
    by_cases hmet : ∀ v, f k = some v → v.location ∈ seen
    · -- nothing is kept at `k`
      obtain ⟨ps, hps, hall, hiff⟩ := ih hsorted seen
      refine ⟨ps, hps.cons k, ?_, List.forall_mem_cons.mpr ⟨?_, fun i hi => ?_⟩⟩
      · cases hu : f k with
        | none => rwa [List.filterMap_cons_none hu]
        | some u => rwa [List.filterMap_cons_some hu, distinct, if_pos (by simpa using hmet u hu)]
      · exact iff_of_false (fun h => hne k (hps.subset h) rfl) (not_firstIn_of_met hmet)
      · rw [hiff i hi, firstIn_cons_of_met hmet]
    · push Not at hmet
      obtain ⟨u, hu, hseen⟩ := hmet
      obtain ⟨ps, hps, hall, hiff⟩ := ih hsorted (u.location :: seen)
      refine ⟨k :: ps, hps.cons_cons k, ?_, List.forall_mem_cons.mpr ⟨?_, fun i hi => ?_⟩⟩
      · rw [List.filterMap_cons_some hu, distinct, if_neg (by simpa using hseen)]
        exact .cons hu hall
      · exact iff_of_true List.mem_cons_self (firstIn_head hu hseen hk)
      · rw [List.mem_cons, or_iff_right (hne i hi), hiff i hi, firstIn_cons hu (hk i hi)]

theorem NoneLost.firstIn_iff {names : List String} (hnames : NoneLost names) {ts : List Token}
    {i : Nat} :
    FirstIn (at? ts names) [] (List.range ts.length) i ↔ FirstUse ts names i := by
  constructor
  · rintro ⟨u, hu, -, hfirst⟩
    refine ⟨hnames.usedAt_iff.mpr ⟨u, hu⟩, fun j hj hused hl => ?_⟩
    obtain ⟨v, hv⟩ := hnames.usedAt_iff.mp hused
    have hlen := (isAt_of_at? hv).stands.inside
    refine hfirst j (List.mem_range.mpr hlen) hj v hv ?_
    rw [(isAt_of_at? hv).location, (isAt_of_at? hu).location, hl]
  · rintro ⟨hused, hfirst⟩
    obtain ⟨u, hu⟩ := hnames.usedAt_iff.mp hused
    refine ⟨u, hu, List.not_mem_nil, fun j _ hj v hv hl => ?_⟩
    refine hfirst j hj (hnames.usedAt_iff.mpr ⟨v, hv⟩) ?_
    rw [← (isAt_of_at? hv).location, ← (isAt_of_at? hu).location, hl]

/-- Where no name is lost, the uses are the first ones at their locations. -/
theorem NoneLost.exists_firstUses {containers : List String}
    (hnames : NoneLost (containers.map Text.unrooted)) (ts : List Token) :
    ∃ positions : List Nat, positions.Pairwise (· < ·) ∧
      (∀ i, i ∈ positions ↔ FirstUse ts (containers.map Text.unrooted) i) ∧
      List.Forall₂ (IsAt ts (containers.map Text.unrooted)) positions (all ts containers) := by
  have hsorted : (List.range ts.length).Pairwise (· < ·) := List.pairwise_lt_range
  obtain ⟨positions, hsub, hall, hiff⟩ :=
    exists_positions (f := at? ts (containers.map Text.unrooted)) hsorted []
  refine ⟨positions, hsorted.sublist hsub, fun i => ?_, hall.imp fun _ _ => isAt_of_at?⟩
  constructor
  · intro hi
    exact hnames.firstIn_iff.mp ((hiff i (hsub.subset hi)).mp hi)
  · intro hi
    obtain ⟨_, _, _, hstands⟩ := hi.1
    exact (hiff i (List.mem_range.mpr hstands.inside)).mpr (hnames.firstIn_iff.mpr hi)

theorem firstUse_spelled {names : List String} {n : String} (hn : n ∈ names) :
    FirstUse (spelled n) names (spelledPosition n) := by
  refine ⟨⟨n, hn, _, stands_spelled n⟩, fun j hj _ hl => ?_⟩
  rw [locationOf_spelled] at hl
  exact Nat.ne_of_lt hj (eq_spelledPosition hl)

end ContainerUse

namespace Configuration

open ContainerUse

/-- The site of a use: the type of its element is built with what is remembered by then. -/
inductive SiteRun (c : Configuration) : ContainerUse → Memo → ContainerSite → Memo → Prop
  | mk {u : ContainerUse} {memo : Memo} :
      SiteRun c u memo ⟨u.container, (c.typeOf (c.lookupTokens u.element) memo).1, u.location⟩
        (c.typeOf (c.lookupTokens u.element) memo).2

/-- The sites are those of the first uses of the names, in the order of the tokens, and the type of
each is built when its turn comes. -/
def SitesMet (c : Configuration) (names : List String) (sites : List ContainerSite) : Prop :=
  ∃ (positions : List Nat) (uses : List ContainerUse) (memo : Memo),
    positions.Pairwise (· < ·) ∧ (∀ i, i ∈ positions ↔ FirstUse c.tokens names i) ∧
      List.Forall₂ (IsAt c.tokens names) positions uses ∧ Memo.Thread c.SiteRun uses [] sites memo

/-- **Where no name is lost, the sites are those of the first uses.** -/
theorem sitesMet_containerSites {containers : List String}
    (hnames : NoneLost (containers.map Text.unrooted)) (c : Configuration) :
    c.SitesMet (containers.map Text.unrooted) (c.containerSites containers []).1 := by
  obtain ⟨positions, hsorted, hfirst, huses⟩ := hnames.exists_firstUses c.tokens
  exact ⟨positions, _, _, hsorted, hfirst, huses, .of_traverse (fun _ _ => .mk) _ _⟩

/-- The locations of the sites are those of the first uses. -/
theorem SitesMet.location_mem {c : Configuration} {names : List String}
    {sites : List ContainerSite} (h : c.SitesMet names sites) {i : Nat}
    (hi : FirstUse c.tokens names i) :
    Token.locationOf c.tokens[i]? ∈ sites.map (·.location) := by
  obtain ⟨positions, uses, memo, -, hfirst, huses, hsites⟩ := h
  have hpositions : positions.map (fun i => Token.locationOf c.tokens[i]?) =
      uses.map (·.location) := by
    rw [← List.forall₂_eq_eq_eq, List.forall₂_map_left_iff, List.forall₂_map_right_iff]
    exact huses.imp fun _ _ hu => hu.location.symm
  have huses : uses.map (·.location) = sites.map (·.location) := by
    rw [← List.forall₂_eq_eq_eq, List.forall₂_map_left_iff, List.forall₂_map_right_iff]
    refine (hsites.invariant (I := fun _ => True) (fun u _ m site m' hrun _ => ?_) trivial).2
    cases hrun
    exact ⟨trivial, rfl⟩
  rw [← huses, ← hpositions]
  exact List.mem_map_of_mem ((hfirst i).mpr hi)

/-- Names of which all first uses are met are not lost. -/
theorem noneLost_of_sitesMet {containers : List String}
    (h : ∀ n ∈ containers.map Text.unrooted,
      ({ tokens := spelled n } : Configuration).SitesMet (containers.map Text.unrooted)
        (({ tokens := spelled n } : Configuration).containerSites containers []).1) :
    NoneLost (containers.map Text.unrooted) := by
  refine noneLost_of_spelled fun n hn => ?_
  have hmem := (h n hn).location_mem (firstUse_spelled hn)
  have hlocations := locationsOf_eq { tokens := spelled n } containers []
  rw [locationsOf] at hlocations
  rw [hlocations, locationOf_spelled] at hmem
  exact mem_location_all.mp hmem

end Configuration

end GrowthAudit
