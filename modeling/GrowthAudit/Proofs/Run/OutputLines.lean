import GrowthAudit.Program
import GrowthAudit.Proofs.Value.ReadingBack

/-!
# Lines of output

The JSON text of a diagnostic is printable ASCII, hence one line, and it reads back as the fields of
the diagnostic.  So the lines of what the program writes are those of the diagnostics, with nothing
behind the last line break, and a reader gets from each line the fields of its diagnostic.

The line and the column of a diagnostic are numbers, and a number of too many digits is never
converted to text or back.  `Location.IsConvertible` says that this does not stand in the way.

* `Diagnostic.printed_jsonLine`, `Diagnostic.newline_notMem_jsonLine`: no line break inside a line.
* `Diagnostic.ofJson?_jsonLine`: a line reads back.
* `Program.splitOn_jsonLines`: the lines of an output.
* `Program.render_json_holdsLines`: the whole output reads back.
-/

namespace GrowthAudit

open Value.Json

/-- Line and column can be converted to text. -/
structure Location.IsConvertible (l : Location) : Prop where
  line : Text.IsConvertible l.line
  column : Text.IsConvertible l.column

instance (l : Location) : Decidable l.IsConvertible :=
  decidable_of_iff (Text.IsConvertible l.line ∧ Text.IsConvertible l.column)
    ⟨fun h => ⟨h.1, h.2⟩, fun h => ⟨h.line, h.column⟩⟩

namespace Diagnostic

/-- The fields of a diagnostic are texts and integers. -/
theorem doubleless_summary (d : Diagnostic) : d.summary.Doubleless := by
  rw [summary]
  refine .table ?_
  simp only [List.forall_mem_cons]
  exact ⟨.str _, .int _, .int _, .str _, .str _, .str _, .str _, .str _,
    fun _ hmem => absurd hmem List.not_mem_nil⟩

/-- They stand under different keys, so they can be read back. -/
theorem discrete_summary {d : Diagnostic} (h : d.location.IsConvertible) : d.summary.Discrete := by
  rw [summary]
  refine .table ?_ ?_
  · simp only [List.map_cons, List.map_nil]
    decide
  · simp only [List.forall_mem_cons]
    exact ⟨.str _, .int h.line, .int h.column, .str _, .str _, .str _, .str _, .str _,
      fun _ hmem => absurd hmem List.not_mem_nil⟩

theorem printed_jsonLine (d : Diagnostic) : ∀ c ∈ d.jsonLine.toList, Printed c := by
  rw [jsonLine, Value.toJson, String.toList_ofList]
  exact printed_chars d.doubleless_summary

/-- The JSON text of a diagnostic is one line. -/
theorem newline_notMem_jsonLine (d : Diagnostic) : '\n' ∉ d.jsonLine.toList := by
  intro h
  exact absurd (d.printed_jsonLine _ h) (by decide)

theorem ofJson?_jsonLine {d : Diagnostic} (h : d.location.IsConvertible) :
    Value.ofJson? d.jsonLine = some d.summary :=
  Value.ofJson?_toJson (discrete_summary h)

end Diagnostic

namespace Program

/-- A line break behind each text is the same as one between the texts and an empty one at the
end. -/
theorem toList_join_lines (lines : List String) :
    (String.join (lines.map (· ++ "\n"))).toList =
      ['\n'].intercalate (lines.map String.toList ++ [[]]) := by
  rw [String.toList_join]
  induction lines with
  | nil => rfl
  | cons line lines ih =>
    obtain ⟨next, rest, hrest⟩ := List.exists_cons_of_ne_nil
      (List.append_ne_nil_of_right_ne_nil (lines.map String.toList) (List.cons_ne_nil [] []))
    rw [List.map_cons, List.map_cons, List.flatMap_cons, ih, List.cons_append, hrest,
      List.intercalate_cons_cons, String.toList_append]
    rfl

/-- The lines of an output of JSON texts are these texts, and nothing stands behind the last line
break. -/
theorem splitOn_jsonLines (ds : List Diagnostic) :
    (String.join (ds.map (·.jsonLine ++ "\n"))).toList.splitOn '\n' =
      ds.map (·.jsonLine.toList) ++ [[]] := by
  have hjoin := toList_join_lines (ds.map (·.jsonLine))
  rw [List.map_map, List.map_map] at hjoin
  refine (congrArg (List.splitOn '\n') hjoin).trans (List.splitOn_intercalate '\n' ?_ (by simp))
  intro line hline
  rcases List.mem_append.mp hline with hline | hline
  · obtain ⟨d, -, rfl⟩ := List.mem_map.mp hline
    exact d.newline_notMem_jsonLine
  · rw [List.mem_singleton.mp hline]
    exact List.not_mem_nil

/-- A text holds values, one on each line: it consists of printable ASCII characters and line
breaks, nothing stands behind the last line break, and the lines read as the values, in order. -/
structure HoldsLines (vs : List Value) (text : String) : Prop where
  printed : ∀ c ∈ text.toList, c = '\n' ∨ Printed c
  lines : ∃ lines : List String, text.toList.splitOn '\n' = lines.map String.toList ++ [[]] ∧
    lines.map Value.ofJson? = vs.map some

theorem printed_join_lines {lines : List String}
    (h : ∀ line ∈ lines, ∀ c ∈ line.toList, Printed c) :
    ∀ c ∈ (String.join (lines.map (· ++ "\n"))).toList, c = '\n' ∨ Printed c := by
  intro c hc
  rw [String.toList_join, List.mem_flatMap] at hc
  obtain ⟨_, hmem, hc⟩ := hc
  obtain ⟨line, hline, rfl⟩ := List.mem_map.mp hmem
  rw [String.toList_append, List.mem_append] at hc
  rcases hc with hc | hc
  · exact .inr (h line hline c hc)
  · exact .inl (List.mem_singleton.mp hc)

/-- **The JSON output reads back**, unless a number in it is too long to be converted: it has one
line for each diagnostic, in order, and each line reads as the fields of its diagnostic. -/
theorem render_json_holdsLines {r : Report}
    (h : ∀ d ∈ r.diagnostics, d.location.IsConvertible) :
    ∃ text, render .json r = .ok text ∧ HoldsLines (r.diagnostics.map (·.summary)) text := by
  refine ⟨_, rfl, ?_, r.diagnostics.map (·.jsonLine), ?_, ?_⟩
  · have hprinted : ∀ line ∈ r.diagnostics.map (·.jsonLine), ∀ c ∈ line.toList, Printed c :=
      List.forall_mem_map.mpr fun d _ => d.printed_jsonLine
    have hlines := printed_join_lines hprinted
    rw [List.map_map] at hlines
    exact hlines
  · rw [splitOn_jsonLines, List.map_map]
    rfl
  · rw [List.map_map, List.map_map]
    exact List.map_congr_left fun d hd => Diagnostic.ofJson?_jsonLine (h d hd)

/-- A tab, a line break and a character beyond the basic plane. -/
def escapedSample : Diagnostic where
  id := "x"
  message := "\t\n𝄞"
  severity := .warning
  location := ⟨"a.cpp", 1000000000000000000000000000000, -1⟩

/-- None of them is left in the line, whose numbers are long but not too long. -/
theorem render_json_holdsLines_sample :
    (∀ d ∈ [escapedSample], d.location.IsConvertible) ∧
      ∃ text, render .json { diagnostics := [escapedSample] } = .ok text ∧
        HoldsLines [escapedSample.summary] text ∧
        text = "\x7b\"file\": \"a.cpp\", \"linenr\": 1000000000000000000000000000000, " ++
          "\"column\": -1, \"severity\": \"warning\", \"message\": \"\\t\\n\\ud834\\udd1e\", " ++
          "\"addon\": \"vector-pessimization\", \"errorId\": \"x\", \"extra\": \"\"\x7d\n" := by
  have hnumbers : ∀ d ∈ [escapedSample], d.location.IsConvertible := by decide +kernel
  obtain ⟨text, htext, hlines⟩ :=
    render_json_holdsLines (r := { diagnostics := [escapedSample] }) hnumbers
  have hwritten : String.join ([escapedSample].map (·.jsonLine ++ "\n")) = text :=
    Except.ok.inj htext
  refine ⟨hnumbers, text, htext, hlines, ?_⟩
  rw [← hwritten]
  decide +kernel

end Program

end GrowthAudit
