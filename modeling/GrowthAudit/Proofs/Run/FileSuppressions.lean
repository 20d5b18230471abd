import GrowthAudit.Proofs.Run.SuppressionStore

/-!
# Suppressions of a file

A comment that names a file and no line is about the whole file.  Which files these are is decided
by the text of their paths: all that end in the name, wherever in a component the ending begins.  So
a comment about `util.cpp` is about `src/util.cpp`, as it should be, and about `myutil.cpp` as well.

* `Text.Literal`, `Text.globMatches_iff_of_literal`: a pattern without special characters matches
  itself and nothing else.
* `Suppressions.meansFile_iff_of_literal`: so the file is decided by the ending of its path alone.
* `Text.EndsAtComponent`: the path is the name, or ends in it where a component begins.
* `Suppressions.covers_after_files`: **what a store of such suppressions covers**, and that it keeps
  to whole components iff the name starts with a slash.
* `Suppressions.covers_within_component`: a suppression that hides the findings of another file.
-/

namespace GrowthAudit

/-! ### Patterns without special characters -/

namespace Text

/-- No character of the pattern has a meaning of its own. -/
def Literal (pattern : String) : Prop :=
  ∀ c ∈ pattern.toList, c ≠ '*' ∧ c ≠ '?' ∧ c ≠ '['

-- the instance is named, for there is another one that runs through all characters
instance (pattern : String) : Decidable (Literal pattern) :=
  List.decidableBAll _ pattern.toList

theorem CharSet.contains_only (c d : Char) : (CharSet.only c).contains d = true ↔ d = c := by
  simp only [CharSet.contains, CharSet.only, List.any_cons, List.any_nil, Bool.or_false,
    bne_iff_ne, ne_eq, Bool.not_eq_false, Bool.and_eq_true, decide_eq_true_eq]
  constructor
  · intro h
    exact Char.le_antisymm h.2 h.1
  · intro h
    subst h
    exact ⟨Char.le_refl d, Char.le_refl d⟩

namespace Glob

/-- Characters without a meaning of their own stand for themselves. -/
theorem pieces_of_literal {bound : Nat} {cs : List Char} (hbound : cs.length ≤ bound)
    (h : ∀ c ∈ cs, c ≠ '*' ∧ c ≠ '?' ∧ c ≠ '[') :
    pieces bound cs = cs.map fun c => .one (.only c) := by
  induction cs generalizing bound with
  | nil => cases bound <;> rfl
  | cons c cs ih =>
    obtain ⟨⟨hstar, hmark, hbracket⟩, hrest⟩ := List.forall_mem_cons.mp h
    obtain ⟨bound, rfl⟩ : ∃ n, bound = n + 1 := by
      rw [List.length_cons] at hbound
      exact ⟨bound - 1, by omega⟩
    rw [List.length_cons] at hbound
    rw [pieces, if_neg hstar, if_neg hmark, if_neg hbracket, ih (by omega) hrest, List.map_cons]

theorem accepts_only_iff (cs text : List Char) :
    accepts (cs.map fun c => .one (.only c)) text = true ↔ text = cs := by
  induction cs generalizing text with
  | nil => simp [accepts]
  | cons c cs ih =>
    cases text with
    | nil => simp [accepts]
    | cons d text => simp [accepts, CharSet.contains_only, ih]

end Glob

/-- **A pattern without special characters matches itself**, and nothing else. -/
theorem globMatches_iff_of_literal {pattern text : String} (h : Literal pattern) :
    globMatches pattern text = true ↔ text = pattern := by
  have hbound : pattern.toList.length ≤ pattern.length := Nat.le_of_eq String.length_toList
  rw [globMatches_eq, Glob.pieces_of_literal hbound h, Glob.accepts_only_iff, String.toList_inj]

/-- The path is the name, or it ends in the name where a component of the path begins: the name
starts with a slash, or a slash stands right before it. -/
def EndsAtComponent (name path : String) : Prop :=
  path = name ∨ ∃ front, path.toList = front ++ name.toList ∧
    (name.toList.head? = some '/' ∨ front.getLast? = some '/')

/-- A name that starts with a slash begins a component wherever it stands. -/
theorem endsAtComponent_of_rooted {name path : String} (hslash : name.toList.head? = some '/')
    (h : name.toList <:+ path.toList) : EndsAtComponent name path := by
  obtain ⟨front, hfront⟩ := h
  exact .inr ⟨front, hfront.symm, .inl hslash⟩

/-- With another letter in front of it, a name that starts with no slash begins in the middle of a
component. -/
theorem not_endsAtComponent_of_letter {name path : String} (hslash : name.toList.head? ≠ some '/')
    {c : Char} (hc : c ≠ '/') (hpath : path.toList = c :: name.toList) :
    ¬ EndsAtComponent name path := by
  rintro (rfl | ⟨front, hfront, hroot | hlast⟩)
  · have hlength := congrArg List.length hpath
    rw [List.length_cons] at hlength
    omega
  · exact hslash hroot
  · have hone : front = [c] := by
      rw [hpath, ← List.singleton_append] at hfront
      exact (List.append_cancel_right hfront).symm
    rw [hone, List.getLast?_singleton] at hlast
    exact hc (Option.some.inj hlast)

end Text

/-! ### Files that are meant -/

/-- **Without special characters the ending of the path decides**: the file of the same name has it,
too, and the pattern matches no other one. -/
theorem Suppressions.meansFile_iff_of_literal {pattern file : String} (h : Text.Literal pattern) :
    Suppressions.meansFile pattern file = true ↔ pattern.toList <:+ file.toList := by
  rw [Suppressions.meansFile, Bool.or_eq_true, Bool.or_eq_true, beq_iff_eq, Text.endsIn,
    List.isSuffixOf_iff_suffix, Text.globMatches_iff_of_literal h]
  constructor
  · rintro ((rfl | hsuffix) | rfl)
    · exact List.suffix_rfl
    · exact hsuffix
    · exact List.suffix_rfl
  · intro hsuffix
    exact .inl (.inr hsuffix)

/-- A comment that names a file and no line, or no id, records nothing but suppressions of the
file. -/
theorem StoreCall.reach_of_records_load {comments : List SuppressionComment} {file : String}
    (hcomments : ∀ c ∈ comments, c.id ≠ "" → c.file = file ∧ c.line.isTruthy = false)
    (hfile : file ≠ "") {entry : Suppression} (h : (StoreCall.load comments).Records entry) :
    entry.reach = .files file := by
  cases h with
  | load hsplit _ hentry =>
    have hmem := hcomments _ (hsplit ▸ List.mem_append_right _ List.mem_cons_self)
    cases hentry with
    | everywhere hid hempty => exact absurd ((hmem hid).1.symm.trans hempty) hfile
    | line hid _ hgiven _ =>
      rw [(hmem hid).2] at hgiven
      cases hgiven
    | files hid _ _ => exact congrArg Reach.files (hmem hid).1

namespace Suppressions

/-- A store that has recorded suppressions of one file only covers the diagnostics with a recorded
id in all files whose path ends in the name. -/
theorem covers_iff_of_files {calls : List StoreCall} {file : String} (hliteral : Text.Literal file)
    (hfiles : ∀ entry, StoreCall.Recorded calls entry → entry.reach = .files file)
    (d : Diagnostic) :
    (after {} calls).covers d = true ↔
      (∃ id, StoreCall.Recorded calls ⟨id, .files file⟩ ∧ (id = d.id ∨ id = "*")) ∧
        file.toList <:+ d.location.file.toList := by
  have hempty : ¬ ({} : Suppressions).covers d = true := by simp [covers]
  rw [covers_after_iff, or_iff_right hempty, ← meansFile_iff_of_literal hliteral]
  constructor
  · rintro ⟨entry, hentry, hconcerns⟩
    obtain ⟨id, reach⟩ := entry
    obtain rfl : reach = .files file := hfiles _ hentry
    exact ⟨⟨id, hentry, hconcerns.id⟩, Reach.holdsAt_iff.mpr hconcerns.reach⟩
  · rintro ⟨⟨id, hentry, hid⟩, hmeans⟩
    exact ⟨_, hentry, hid, Reach.holdsAt_iff.mp hmeans⟩

/-- Wherever a name starts with no slash, its suppressions cover a diagnostic in another file. -/
theorem exists_covered_within_component {calls : List StoreCall} {file : String}
    (hliteral : Text.Literal file)
    (hfiles : ∀ entry, StoreCall.Recorded calls entry → entry.reach = .files file)
    (hslash : file.toList.head? ≠ some '/') {entry : Suppression}
    (hentry : StoreCall.Recorded calls entry) :
    ∃ d, (after {} calls).covers d = true ∧ ¬ Text.EndsAtComponent file d.location.file := by
  obtain ⟨id, reach⟩ := entry
  obtain rfl : reach = .files file := hfiles _ hentry
  -- a diagnostic in the file with one letter more in front
  let d : Diagnostic :=
    { id, message := "", severity := .style
      location := { file := String.ofList ('x' :: file.toList) } }
  have hpath : d.location.file.toList = 'x' :: file.toList := String.toList_ofList
  refine ⟨d, ?_, Text.not_endsAtComponent_of_letter hslash (by decide) hpath⟩
  refine (covers_iff_of_files hliteral hfiles d).mpr ⟨⟨id, hentry, .inl rfl⟩, ?_⟩
  rw [hpath]
  exact List.suffix_cons 'x' file.toList

/-- **What suppressions of a file cover.**  If all that a store has recorded is about the file of
one name, without special characters, then it covers the diagnostics with a recorded id in all files
whose path ends in the name.  It keeps to whole components, whatever the diagnostic is, iff the name
starts with a slash or nothing is recorded. -/
theorem covers_after_files {calls : List StoreCall} {file : String} (hliteral : Text.Literal file)
    (hfiles : ∀ entry, StoreCall.Recorded calls entry → entry.reach = .files file) :
    (∀ d, (after {} calls).covers d = true ↔
        (∃ id, StoreCall.Recorded calls ⟨id, .files file⟩ ∧ (id = d.id ∨ id = "*")) ∧
          file.toList <:+ d.location.file.toList) ∧
      ((∀ d, (after {} calls).covers d = true → Text.EndsAtComponent file d.location.file) ↔
        file.toList.head? = some '/' ∨ ∀ entry, ¬ StoreCall.Recorded calls entry) := by
  have hcovers := covers_iff_of_files hliteral hfiles
  refine ⟨hcovers, ?_, ?_⟩
  · intro hwithin
    by_contra hnot
    rw [not_or, not_forall_not] at hnot
    obtain ⟨hslash, entry, hentry⟩ := hnot
    obtain ⟨d, hcovered, hstray⟩ :=
      exists_covered_within_component hliteral hfiles hslash hentry
    exact hstray (hwithin d hcovered)
  · rintro (hslash | hnone) d hd
    · exact Text.endsAtComponent_of_rooted hslash ((hcovers d).mp hd).2
    · obtain ⟨⟨id, hentry, -⟩, -⟩ := (hcovers d).mp hd
      exact absurd hentry (hnone _)

/-- Comments about all diagnostics of a file: one with an id, one that names none, and one for all
ids. -/
def fileCommentsSample (file : String) : List SuppressionComment :=
  [{ id := "style", file, line := .int 0 }, { file := "other.cpp", line := .int 3 },
    { id := "*", file }]

theorem recorded_fileCommentsSample {file : String} (hfile : file ≠ "") (entry : Suppression)
    (h : StoreCall.Recorded [.load (fileCommentsSample file)] entry) :
    entry.reach = .files file := by
  obtain ⟨call, hcall, hrecords⟩ := h
  obtain rfl := List.mem_singleton.mp hcall
  refine StoreCall.reach_of_records_load ?_ hfile hrecords
  intro c hc hid
  simp only [fileCommentsSample, List.mem_cons, List.not_mem_nil, or_false] at hc
  rcases hc with rfl | rfl | rfl
  · exact ⟨rfl, rfl⟩
  · exact absurd rfl hid
  · exact ⟨rfl, rfl⟩

/-- Comments about `/src/a.cpp` keep to it, and comments about `util.cpp` do not. -/
theorem covers_after_files_sample :
    Text.Literal "/src/a.cpp" ∧ Text.Literal "util.cpp" ∧
      (∀ entry, StoreCall.Recorded [.load (fileCommentsSample "util.cpp")] entry →
        entry.reach = .files "util.cpp") ∧
      (∀ d, (after {} [.load (fileCommentsSample "/src/a.cpp")]).covers d = true →
        Text.EndsAtComponent "/src/a.cpp" d.location.file) ∧
      (after {} [.load (fileCommentsSample "util.cpp")]).covers
        { id := "style", message := "m", severity := .style, location := ⟨"src/util.cpp", 7, 1⟩ } =
          true ∧
      ¬ ∀ d, (after {} [.load (fileCommentsSample "util.cpp")]).covers d = true →
        Text.EndsAtComponent "util.cpp" d.location.file := by
  have hrooted : Text.Literal "/src/a.cpp" := by decide
  have hplain : Text.Literal "util.cpp" := by decide
  obtain ⟨-, hkeeps⟩ :=
    covers_after_files hrooted (recorded_fileCommentsSample (by decide))
  have hfiles := @recorded_fileCommentsSample "util.cpp" (by decide)
  obtain ⟨hcovers, hstrays⟩ := covers_after_files hplain hfiles
  have hrecorded : StoreCall.Recorded [.load (fileCommentsSample "util.cpp")]
      ⟨"style", .files "util.cpp"⟩ :=
    ⟨_, List.mem_singleton_self _, .load (List.nil_append _).symm (List.forall_mem_nil _)
      (.files (by decide) (by decide) rfl)⟩
  refine ⟨hrooted, hplain, hfiles, hkeeps.mpr (.inl rfl), ?_, ?_⟩
  · exact (hcovers _).mpr ⟨⟨_, hrecorded, .inl rfl⟩, ⟨"src/".toList, rfl⟩⟩
  · intro hwithin
    rcases hstrays.mp hwithin with hslash | hnone
    · exact absurd hslash (by decide)
    · exact hnone _ hrecorded

/-- A comment about `util.cpp` is all that is recorded, and it covers a diagnostic in `myutil.cpp`,
whose path ends in the name in the middle of a component. -/
theorem covers_within_component :
    Text.Literal "util.cpp" ∧
      (∀ entry, StoreCall.Recorded [.load [{ id := "style", file := "util.cpp" }]] entry →
        entry.reach = .files "util.cpp") ∧
      (after {} [.load [{ id := "style", file := "util.cpp" }]]).covers
        { id := "style", message := "m", severity := .style
          location := ⟨"src/myutil.cpp", 7, 1⟩ } = true ∧
      ¬ Text.EndsAtComponent "util.cpp" "src/myutil.cpp" := by
  refine ⟨by decide, ?_, by decide, ?_⟩
  · rintro entry ⟨call, hcall, hrecords⟩
    obtain rfl := List.mem_singleton.mp hcall
    refine StoreCall.reach_of_records_load ?_ (by decide) hrecords
    intro c hc _
    rw [List.mem_singleton.mp hc]
    exact ⟨rfl, rfl⟩
  · rintro (hsame | ⟨front, hfront, hroot | hlast⟩)
    · exact absurd hsame (by decide)
    · exact absurd hroot (by decide)
    · have hsplit : "src/myutil.cpp".toList = "src/my".toList ++ "util.cpp".toList := by decide
      rw [hsplit] at hfront
      obtain rfl := List.append_cancel_right hfront
      exact absurd hlast (by decide)

end Suppressions

end GrowthAudit
