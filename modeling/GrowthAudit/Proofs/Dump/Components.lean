import GrowthAudit.Proofs.Dump.NameLookup

/-!
# Components of names

A qualified name is put together from the names of a record and of what is around it, and where none
of these has a colon it comes apart into them again.  One would like that a name that means a record
consists of the last components of the record's qualified name.  But a name that is not the whole
one is compared as a text, and where its text ends is left open on the left: its first component may
start in the middle of a component.

* `Text.splitColons_intercalate`: what is joined by double colons comes apart again.
* `Text.exists_facing_of_suffix`: where the ending of a joined text begins.
* `Configuration.components_qualifiedName`: the components of a qualified name.
* `Configuration.components_of_findRecord?`: how the components of a name compare with those of the
  record that it means.
-/

namespace GrowthAudit

namespace Text

/-! ### Joined texts -/

theorem splitColons_of_notMem {cs : List Char} (h : ':' ∉ cs) : splitColons cs = [cs] := by
  induction cs with
  | nil => rfl
  | cons c cs ih =>
    obtain ⟨hc, hcs⟩ := List.ne_and_not_mem_of_not_mem_cons h
    rw [splitColons, ih hcs]
    rintro _ rfl
    exact absurd rfl hc

theorem splitColons_append {part : List Char} (h : ':' ∉ part) (rest : List Char) :
    splitColons (part ++ ':' :: ':' :: rest) = part :: splitColons rest := by
  induction part with
  | nil => rfl
  | cons c part ih =>
    obtain ⟨hc, hpart⟩ := List.ne_and_not_mem_of_not_mem_cons h
    rw [List.cons_append, splitColons, ih hpart]
    rintro _ rfl
    exact absurd rfl hc

/-- What is joined by double colons comes apart again, if the parts have no colons. -/
theorem splitColons_intercalate {parts : List (List Char)} (hne : parts ≠ [])
    (h : ∀ part ∈ parts, ':' ∉ part) : splitColons ([':', ':'].intercalate parts) = parts := by
  induction parts with
  | nil => exact absurd rfl hne
  | cons part parts ih =>
    have hpart := h part List.mem_cons_self
    cases parts with
    | nil =>
      rw [List.intercalate_singleton]
      exact splitColons_of_notMem hpart
    | cons next parts =>
      rw [List.intercalate_cons_cons, List.append_assoc]
      have hrest := ih (List.cons_ne_nil _ _) fun q hq => h q (List.mem_cons_of_mem _ hq)
      exact (splitColons_append hpart _).trans (congrArg (part :: ·) hrest)

/-- Joining texts by double colons adds nothing but colons. -/
theorem notMem_intercalate {x : Char} {parts : List (List Char)} (hx : x ∉ [':', ':'])
    (h : ∀ part ∈ parts, x ∉ part) : x ∉ [':', ':'].intercalate parts := by
  induction parts with
  | nil => exact List.not_mem_nil
  | cons part parts ih =>
    obtain ⟨hpart, hparts⟩ := List.forall_mem_cons.mp h
    cases parts with
    | nil =>
      rw [List.intercalate_singleton]
      exact hpart
    | cons next parts =>
      rw [List.intercalate_cons_cons]
      exact List.not_mem_append (List.not_mem_append hpart hx) (ih hparts)

/-- An ending of a joined text that does not begin with a colon begins inside one of the parts, and
all parts behind that one are whole. -/
theorem exists_facing_of_suffix {parts : List (List Char)} {ending : List Char}
    (h : ending <:+ [':', ':'].intercalate parts) (hne : ending ≠ [])
    (hhead : ending.head? ≠ some ':') :
    ∃ before facing rest first, parts = before ++ facing :: rest ∧ first <:+ facing ∧
      ending = [':', ':'].intercalate (first :: rest) := by
  induction parts with
  | nil => exact absurd (List.suffix_nil.mp h) hne
  | cons part parts ih =>
    cases parts with
    | nil =>
      rw [List.intercalate_singleton] at h
      exact ⟨[], part, [], ending, rfl, h, (List.intercalate_singleton).symm⟩
    | cons next parts =>
      -- the ending begins behind the double colon, in it, or in the first part
      have hbehind : ending <:+ [':', ':'].intercalate (next :: parts) →
          ∃ before facing rest first, part :: next :: parts = before ++ facing :: rest ∧
            first <:+ facing ∧ ending = [':', ':'].intercalate (first :: rest) := by
        intro hrest
        obtain ⟨before, facing, rest, first, hparts, hfirst, hending⟩ := ih hrest
        exact ⟨part :: before, facing, rest, first, congrArg (part :: ·) hparts, hfirst, hending⟩
      rw [List.intercalate_cons_cons] at h
      obtain ⟨front, hfront⟩ := h
      rcases List.append_eq_append_iff.mp hfront with ⟨cut, hcut, hending⟩ | ⟨cut, -, hrest⟩
      · rcases List.append_eq_append_iff.mp hcut with ⟨colons, -, hcolons⟩ | ⟨first, hpart, rfl⟩
        · match colons, hcolons with
          | [], hcolons =>
            rw [hending, ← List.nil_append cut, ← hcolons] at hhead
            exact absurd rfl hhead
          | [_], hcolons =>
            cases hcolons
            rw [hending] at hhead
            exact absurd rfl hhead
          | [_, _], hcolons =>
            cases hcolons
            exact hbehind (hending ▸ List.suffix_rfl)
        · refine ⟨[], part, next :: parts, first, rfl, ⟨front, hpart.symm⟩, ?_⟩
          rw [hending, List.intercalate_cons_cons]
      · exact hbehind ⟨cut, hrest.symm⟩

/-- The components of a name are the last ones of another name that has the same ones behind the
first exactly if the first ones are equal, too. -/
theorem suffix_append_cons_iff {before rest : List String} {first facing : String} :
    first :: rest <:+ before ++ facing :: rest ↔ first = facing := by
  constructor
  · rintro ⟨front, hfront⟩
    have hsame := List.append_inj_right' hfront rfl
    exact (List.cons.inj hsame).1
  · rintro rfl
    exact List.suffix_append before _

theorem endsIn_rfl (name : String) : endsIn name name = true :=
  List.isSuffixOf_iff_suffix.mpr List.suffix_rfl

theorem head?_unrooted (name : String) : (unrooted name).toList.head? ≠ some ':' := by
  rw [unrooted, String.toList_ofList]
  intro hhead
  have hnot := List.head?_dropWhile_not (· = ':') name.toList
  rw [hhead] at hnot
  exact absurd hnot (by decide)

end Text

open Text

namespace Configuration

variable {c : Configuration}

/-! ### Components of a qualified name -/

/-- The names that make up the qualified name of a scope. -/
def path (c : Configuration) (i : Nat) : List String :=
  match c.scope? i with
  | none => []
  | some s => (s.className :: c.enclosingNames c.scopes.length s.nestedIn).reverse

theorem toList_qualifiedName (i : Nat) :
    (c.qualifiedName i).toList = [':', ':'].intercalate ((c.path i).map String.toList) := by
  rw [qualifiedName, path]
  cases c.scope? i with
  | none => rfl
  | some s => exact String.toList_intercalate

theorem exists_scope_of_mem_enclosingNames {bound : Nat} {outer : Option Nat} {name : String}
    (h : name ∈ c.enclosingNames bound outer) :
    ∃ s ∈ c.scopes, (s.kind = .record ∨ s.kind = .nameSpace) ∧ s.className = name := by
  induction bound generalizing outer with
  | zero => exact absurd h List.not_mem_nil
  | succ bound ih =>
    cases outer with
    | none => exact absurd h List.not_mem_nil
    | some i =>
      rw [enclosingNames] at h
      split at h
      · exact absurd h List.not_mem_nil
      · next s hs =>
        split at h
        · next hcounts =>
          rcases List.mem_cons.mp h with rfl | h
          · exact ⟨s, List.mem_of_getElem? hs, hcounts.1, rfl⟩
          · exact ih h
        · exact ih h

theorem exists_scope_of_mem_path {i : Nat} {name : String} (h : name ∈ c.path i) :
    ∃ s ∈ c.scopes, (c.scope? i = some s ∨ s.kind = .record ∨ s.kind = .nameSpace) ∧
      s.className = name := by
  rw [path] at h
  split at h
  · exact absurd h List.not_mem_nil
  · next s hs =>
    rcases List.mem_cons.mp (List.mem_reverse.mp h) with rfl | h
    · exact ⟨s, List.mem_of_getElem? hs, .inl hs, rfl⟩
    · obtain ⟨outer, houter, hkind, hname⟩ := exists_scope_of_mem_enclosingNames h
      exact ⟨outer, houter, .inr hkind, hname⟩

/-- The path of a record ends in its own name. -/
theorem path_of_mem_named {i : Nat} (hi : i ∈ c.named .record) :
    ∃ outer, c.path i = outer ++ [c.className i] ∧ c.className i ≠ "" := by
  obtain ⟨s, hs, -, hne⟩ := mem_named.mp hi
  have hname : c.className i = s.className := by
    rw [className, hs]
    rfl
  refine ⟨(c.enclosingNames c.scopes.length s.nestedIn).reverse, ?_, hname ▸ hne⟩
  rw [path, hs, hname]
  exact List.reverse_cons

section

variable (hcolon : ∀ s ∈ c.scopes, ':' ∉ s.className.toList)

include hcolon

theorem colon_notMem_of_mem_path {i : Nat} {part : List Char}
    (h : part ∈ (c.path i).map String.toList) : ':' ∉ part := by
  obtain ⟨name, hname, rfl⟩ := List.mem_map.mp h
  obtain ⟨s, hs, -, rfl⟩ := exists_scope_of_mem_path hname
  exact hcolon s hs

/-- A qualified name comes apart into the names that it is made of. -/
theorem components_qualifiedName {i : Nat} (hi : i ∈ c.named .record) :
    components (c.qualifiedName i) = c.path i := by
  obtain ⟨outer, hpath, -⟩ := path_of_mem_named hi
  have hne : (c.path i).map String.toList ≠ [] := by
    rw [hpath]
    simp
  rw [components, toList_qualifiedName,
    splitColons_intercalate hne fun part hpart => colon_notMem_of_mem_path hcolon hpart,
    List.map_map]
  simp [Function.comp_def]

/-- A text that is the ending of the qualified name of a record has components that are the last
ones of the record, but for the first one, which is an ending. -/
theorem components_of_endsIn {i : Nat} (hi : i ∈ c.named .record) {key : String} (hne : key ≠ "")
    (hhead : key.toList.head? ≠ some ':') (hends : endsIn (c.qualifiedName i) key = true) :
    ∃ before facing rest first, components (c.qualifiedName i) = before ++ facing :: rest ∧
      components key = first :: rest ∧ endsIn facing first = true := by
  have hsuffix : key.toList <:+ [':', ':'].intercalate ((c.path i).map String.toList) := by
    rw [← toList_qualifiedName]
    exact List.isSuffixOf_iff_suffix.mp hends
  obtain ⟨before, facing, rest, first, hpath, hfirst, hkey⟩ :=
    exists_facing_of_suffix hsuffix (by simpa using hne) hhead
  have hparts : ∀ part ∈ first :: rest, ':' ∉ part := by
    have hpaths : ∀ part ∈ facing :: rest, ':' ∉ part := fun part hpart =>
      colon_notMem_of_mem_path hcolon (hpath ▸ List.mem_append_right before hpart)
    intro part hpart
    rcases List.mem_cons.mp hpart with rfl | hpart
    · exact fun hmem => hpaths facing List.mem_cons_self (hfirst.mem hmem)
    · exact hpaths part (List.mem_cons_of_mem _ hpart)
  refine ⟨before.map String.ofList, String.ofList facing, rest.map String.ofList,
    String.ofList first, ?_, ?_, ?_⟩
  · rw [components_qualifiedName hcolon hi, ← List.map_cons, ← List.map_append, ← hpath]
    simp [Function.comp_def]
  · rw [components, hkey, splitColons_intercalate (List.cons_ne_nil _ _) hparts, List.map_cons]
  · rw [endsIn, String.toList_ofList, String.toList_ofList]
    exact List.isSuffixOf_iff_suffix.mpr hfirst

/-! ### Components of a name that is found -/

/-- **What a name has in common with the record that it means**: all components but the first one
are the last ones of the record's qualified name, and the first one is a textual ending of the
component that it faces.  The components of the name are the last ones of the record exactly if it
is that component. -/
theorem components_of_findRecord? {name : String} (hname : '<' ∉ name.toList) {i : Nat}
    (hfound : c.findRecord? name = some i) :
    ∃ before facing rest first, components (c.qualifiedName i) = before ++ facing :: rest ∧
      components (unrooted name) = first :: rest ∧ endsIn facing first = true ∧
      (components (unrooted name) <:+ components (c.qualifiedName i) ↔ first = facing) := by
  -- it is enough to compare the components
  suffices h : ∃ before facing rest first,
      components (c.qualifiedName i) = before ++ facing :: rest ∧
        components (unrooted name) = first :: rest ∧ endsIn facing first = true by
    obtain ⟨before, facing, rest, first, hqualified, hcomponents, hends⟩ := h
    refine ⟨before, facing, rest, first, hqualified, hcomponents, hends, ?_⟩
    rw [hqualified, hcomponents]
    exact suffix_append_cons_iff
  have hkey : lookupKey name = unrooted name := by
    rw [lookupKey, untemplated_of_notMem hname]
  have hrecord := findRecord?_eq_some_iff.mp hfound
  rw [hkey] at hrecord
  rcases hrecord with ⟨hi, hwhole, -⟩ | ⟨-, hi, ⟨hlast, hends⟩, -⟩
  · obtain ⟨outer, hpath, -⟩ := path_of_mem_named hi
    rw [← hwhole, components_qualifiedName hcolon hi, hpath]
    cases outer with
    | nil => exact ⟨[], c.className i, [], c.className i, rfl, rfl, endsIn_rfl _⟩
    | cons first outer => exact ⟨[], first, outer ++ [c.className i], first, rfl, rfl, endsIn_rfl _⟩
  · refine components_of_endsIn hcolon hi ?_ (head?_unrooted name) hends
    obtain ⟨_, _, hne⟩ := path_of_mem_named hi
    intro hempty
    rw [hempty] at hlast
    exact hne (hlast.trans (by decide))

end

/-- `namespace mylib { struct Key { }; }` -/
def keySample : Configuration where
  scopes := [
    { kind := .nameSpace, className := "mylib", id := some "1", bodyStart := some 2 },
    { kind := .record, className := "Key", id := some "2", bodyStart := some 5, nestedIn := some 0 }]

theorem components_of_findRecord?_sample :
    (∀ s ∈ keySample.scopes, ':' ∉ s.className.toList) ∧ '<' ∉ "::mylib::Key".toList ∧
      keySample.findRecord? "::mylib::Key" = some 1 ∧
      ∃ before facing rest first,
        components (keySample.qualifiedName 1) = before ++ facing :: rest ∧
        components (unrooted "::mylib::Key") = first :: rest ∧ endsIn facing first = true ∧
        (components (unrooted "::mylib::Key") <:+ components (keySample.qualifiedName 1) ↔
          first = facing) := by
  have hcolon : ∀ s ∈ keySample.scopes, ':' ∉ s.className.toList := by decide +kernel
  have hname : '<' ∉ "::mylib::Key".toList := by decide +kernel
  have hfound : keySample.findRecord? "::mylib::Key" = some 1 := by decide +kernel
  exact ⟨hcolon, hname, hfound, components_of_findRecord? hcolon hname hfound⟩

/-- The name `lib::Key` means the record `mylib::Key`, of which `lib` is no component. -/
theorem findRecord?_inside_component :
    (∀ s ∈ keySample.scopes, ':' ∉ s.className.toList) ∧ '<' ∉ "lib::Key".toList ∧
      keySample.findRecord? "lib::Key" = some 1 ∧
      components (keySample.qualifiedName 1) = ["mylib", "Key"] ∧
      components (unrooted "lib::Key") = ["lib", "Key"] ∧
      ¬ components (unrooted "lib::Key") <:+ components (keySample.qualifiedName 1) := by
  decide +kernel

end Configuration

end GrowthAudit
