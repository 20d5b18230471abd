import GrowthAudit.Proofs.Dump.NameLookup

/-!
# Template arguments in names

Template arguments should not change which record a name means, wherever in the name they stand.
The search for a record cuts a name at its first angle bracket, so it loses not only the arguments
but also everything behind them: `Outer<int>::Inner` is looked up as `Outer`.

* `Text.withoutArguments`: a name without its argument lists.
* `Configuration.findRecord?_withoutArguments_iff`: the argument lists do not matter, whatever the
  configuration, exactly for those names that have nothing but argument lists behind the first one.
-/

namespace GrowthAudit

namespace Text

/-! ### Names with argument lists -/

/-- Every closing bracket closes one, and none is left open; so many are open at the beginning. -/
def closes : (depth : Nat) → List Char → Bool
  | depth, [] => depth == 0
  | depth, c :: cs =>
    if c = '<' then closes (depth + 1) cs
    else if c = '>' then depth != 0 && closes (depth - 1) cs
    else closes depth cs

/-- The characters outside brackets, of which so many are open at the beginning. -/
def outside : (depth : Nat) → List Char → List Char
  | _, [] => []
  | depth, c :: cs =>
    if c = '<' then outside (depth + 1) cs
    else if c = '>' then outside (depth - 1) cs
    else if depth = 0 then c :: outside depth cs
    else outside depth cs

/-- The angle brackets of a name are balanced. -/
def isBalanced (name : String) : Bool := closes 0 name.toList

/-- A name without its template argument lists: the brackets and what is between them. -/
def withoutArguments (name : String) : String := String.ofList (outside 0 name.toList)

/-- A name has no angle brackets. -/
def Bracketless (name : String) : Prop := '<' ∉ name.toList ∧ '>' ∉ name.toList

instance (name : String) : Decidable (Bracketless name) :=
  inferInstanceAs (Decidable ('<' ∉ name.toList ∧ '>' ∉ name.toList))

/-- What is in front of the first argument list is not in one. -/
theorem takeWhile_prefix_outside {cs : List Char} (h : closes 0 cs = true) :
    cs.takeWhile (· ≠ '<') <+: outside 0 cs := by
  induction cs with
  | nil => exact List.prefix_rfl
  | cons c cs ih =>
    rw [closes] at h
    rw [outside]
    by_cases hopen : c = '<'
    · rw [hopen]
      exact List.nil_prefix
    · rw [if_neg hopen] at h ⊢
      by_cases hclose : c = '>'
      · -- it would close nothing
        rw [if_pos hclose] at h
        exact absurd h Bool.false_ne_true
      · rw [if_neg hclose] at h ⊢
        rw [if_pos rfl, List.takeWhile_cons_of_pos (by simpa using hopen), List.cons_prefix_cons]
        exact ⟨rfl, ih h⟩

theorem notMem_outside (depth : Nat) (cs : List Char) :
    '<' ∉ outside depth cs ∧ '>' ∉ outside depth cs := by
  induction cs generalizing depth with
  | nil => exact ⟨List.not_mem_nil, List.not_mem_nil⟩
  | cons c cs ih =>
    rw [outside]
    split
    · exact ih _
    · next hopen =>
      split
      · exact ih _
      · next hclose =>
        split
        · obtain ⟨ho, hc⟩ := ih depth
          exact ⟨List.not_mem_cons_of_ne_of_not_mem (Ne.symm hopen) ho,
            List.not_mem_cons_of_ne_of_not_mem (Ne.symm hclose) hc⟩
        · exact ih depth

theorem bracketless_withoutArguments (name : String) : Bracketless (withoutArguments name) := by
  rw [Bracketless, withoutArguments, String.toList_ofList]
  exact notMem_outside 0 name.toList

/-! ### What is searched for -/

theorem dropWhile_prefix_dropWhile {α : Type} {l l' : List α} (p : α → Bool) (h : l <+: l') :
    l.dropWhile p <+: l'.dropWhile p := by
  obtain ⟨rest, rfl⟩ := h
  rw [List.dropWhile_append]
  split
  · next hempty =>
    rw [List.isEmpty_iff.mp hempty]
    exact List.nil_prefix
  · exact List.prefix_append _ _

/-- What is searched for is a beginning of what is left without argument lists. -/
theorem lookupKey_prefix {name : String} (h : isBalanced name = true) :
    (lookupKey name).toList <+: (unrooted (withoutArguments name)).toList := by
  rw [lookupKey, unrooted, unrooted, untemplated, withoutArguments]
  simp only [String.toList_ofList]
  exact dropWhile_prefix_dropWhile _ (takeWhile_prefix_outside h)

theorem lookupKey_withoutArguments (name : String) :
    lookupKey (withoutArguments name) = unrooted (withoutArguments name) := by
  rw [lookupKey, untemplated_of_notMem (bracketless_withoutArguments name).1]

theorem length_lastComponent_le (name : String) :
    (lastComponent name).toList.length ≤ name.toList.length := by
  rw [lastComponent]
  cases h : afterLastColons? name.toList with
  | none => exact Nat.le_refl _
  | some after =>
    obtain ⟨front, hfront⟩ := eq_append_of_afterLastColons? h
    rw [hfront, Option.map_some, Option.getD_some, String.toList_ofList, List.length_append,
      List.length_cons, List.length_cons]
    omega

end Text

open Text

namespace Configuration

/-- Which record a name means depends on what is searched for. -/
theorem findRecord?_congr (c : Configuration) {name name' : String}
    (h : lookupKey name = lookupKey name') : c.findRecord? name = c.findRecord? name' := by
  rw [lookupKey, lookupKey] at h
  rw [findRecord?, findRecord?, h]

/-- The configuration with a single record. -/
def single (name : String) : Configuration where
  scopes := [{ kind := .record, className := name }]

theorem qualifiedName_single (name : String) : (single name).qualifiedName 0 = name := by
  show "::".intercalate [name] = name
  rw [← String.toList_inj, String.toList_intercalate]
  simp

theorem mem_named_single {name : String} (hne : name ≠ "") {i : Nat} :
    i ∈ (single name).named .record ↔ i = 0 := by
  rw [mem_named]
  constructor
  · rintro ⟨s, hs, -⟩
    have hlt := (List.getElem?_eq_some_iff.mp hs).1
    exact Nat.lt_one_iff.mp hlt
  · rintro rfl
    exact ⟨_, rfl, rfl, hne⟩

theorem findRecord?_single_self {name search : String} (hne : name ≠ "")
    (h : lookupKey search = name) : (single name).findRecord? search = some 0 := by
  refine findRecord?_eq_some_iff.mpr (.inl ⟨(mem_named_single hne).mpr rfl, ?_, ?_⟩)
  · exact (qualifiedName_single name).trans h.symm
  · exact fun _ _ hlt => absurd hlt (Nat.not_lt_zero _)

/-- A text that is shorter than the name of the only record does not mean it. -/
theorem findRecord?_single_ne {name search : String}
    (h : (lookupKey search).toList.length < name.toList.length) :
    (single name).findRecord? search ≠ some 0 := by
  intro hfound
  rcases findRecord?_eq_some_iff.mp hfound with ⟨-, hwhole, -⟩ | ⟨-, -, ⟨hlast, -⟩, -⟩
  · rw [qualifiedName_single] at hwhole
    rw [hwhole] at h
    exact Nat.lt_irrefl _ h
  · have hle := length_lastComponent_le (lookupKey search)
    rw [← hlast] at hle
    exact absurd h (Nat.not_lt.mpr hle)

/-- **Template arguments do not change which record a name means iff nothing stands behind them.**
For a name with balanced brackets: it means the same record as without its argument lists, in every
configuration in which the names of records have no brackets, exactly if the text in front of the
first argument list is all that is outside the lists, colons in front aside. -/
theorem findRecord?_withoutArguments_iff {name : String} (hbalanced : isBalanced name = true) :
    (∀ c : Configuration, (∀ i ∈ c.named .record, Bracketless (c.qualifiedName i)) →
        c.findRecord? name = c.findRecord? (withoutArguments name)) ↔
      unrooted (untemplated name) = unrooted (withoutArguments name) := by
  constructor
  · intro h
    by_contra hdiffers
    obtain ⟨rest, hrest⟩ := lookupKey_prefix hbalanced
    have hshorter : (lookupKey name).toList.length <
        (unrooted (withoutArguments name)).toList.length := by
      have hne : rest ≠ [] := by
        rintro rfl
        rw [List.append_nil, String.toList_inj] at hrest
        exact hdiffers hrest
      have hpos := List.length_pos_iff.mpr hne
      rw [← hrest, List.length_append]
      omega
    have hne : unrooted (withoutArguments name) ≠ "" := by
      intro hempty
      rw [hempty] at hshorter
      exact absurd hshorter (Nat.not_lt_zero _)
    have hbracketless : ∀ i ∈ (single (unrooted (withoutArguments name))).named .record,
        Bracketless ((single (unrooted (withoutArguments name))).qualifiedName i) := by
      intro i hi
      rw [(mem_named_single hne).mp hi, qualifiedName_single, Bracketless, unrooted,
        String.toList_ofList]
      obtain ⟨hopen, hclose⟩ := bracketless_withoutArguments name
      exact ⟨fun hmem => hopen ((List.dropWhile_suffix _).mem hmem),
        fun hmem => hclose ((List.dropWhile_suffix _).mem hmem)⟩
    have hsame := h _ hbracketless
    rw [findRecord?_single_self hne (lookupKey_withoutArguments name)] at hsame
    exact findRecord?_single_ne hshorter hsame
  · intro hkey c _
    refine c.findRecord?_congr ?_
    rw [lookupKey_withoutArguments]
    exact hkey

/-- `template <class T> struct Outer { struct Inner { }; };` -/
def nestedSample : Configuration where
  scopes := [
    { kind := .record, className := "Outer", id := some "1", bodyStart := some 7 },
    { kind := .record, className := "Inner", id := some "2", bodyStart := some 10
      nestedIn := some 0 }]

theorem findRecord?_withoutArguments_iff_sample :
    isBalanced "::Outer::Inner<std::pair<int, T<1>>>" = true ∧
      withoutArguments "::Outer::Inner<std::pair<int, T<1>>>" = "::Outer::Inner" ∧
      (∀ i ∈ nestedSample.named .record, Bracketless (nestedSample.qualifiedName i)) ∧
      nestedSample.findRecord? "::Outer::Inner<std::pair<int, T<1>>>" = some 1 := by
  have hbalanced : isBalanced "::Outer::Inner<std::pair<int, T<1>>>" = true := by decide +kernel
  have hwithout : withoutArguments "::Outer::Inner<std::pair<int, T<1>>>" = "::Outer::Inner" := by
    decide +kernel
  have hbracketless : ∀ i ∈ nestedSample.named .record,
      Bracketless (nestedSample.qualifiedName i) := by
    unfold Bracketless
    decide +kernel
  have hfound : nestedSample.findRecord? "::Outer::Inner" = some 1 := by decide +kernel
  have hkey : unrooted (untemplated "::Outer::Inner<std::pair<int, T<1>>>") =
      unrooted (withoutArguments "::Outer::Inner<std::pair<int, T<1>>>") := by decide +kernel
  refine ⟨hbalanced, hwithout, hbracketless, ?_⟩
  rw [(findRecord?_withoutArguments_iff hbalanced).mpr hkey nestedSample hbracketless, hwithout,
    hfound]

/-- The name `Outer<int>::Inner` means the record `Outer`, and `Outer::Inner` the one inside. -/
theorem findRecord?_behind_arguments :
    (∀ i ∈ nestedSample.named .record,
        '<' ∉ (nestedSample.qualifiedName i).toList ∧
          '>' ∉ (nestedSample.qualifiedName i).toList) ∧
      isBalanced "Outer<int>::Inner" = true ∧
      withoutArguments "Outer<int>::Inner" = "Outer::Inner" ∧
      nestedSample.findRecord? "Outer<int>::Inner" = some 0 ∧
      nestedSample.findRecord? "Outer::Inner" = some 1 := by
  decide +kernel

end Configuration

end GrowthAudit
