import GrowthAudit.Proofs.Dump.Parentheses

/-!
# Lists and qualified names as they are written

The bases of a class and the arguments of a template are written alike: rows of tokens with commas
between them, where the commas inside brackets belong to the rows.

* `Token.Commaless`: rows in which brackets are nested and no comma stands outside them.
* `Token.CommaJoined`: rows with commas between them.
* `Token.splitCommas_of_joined`: **what is joined by commas is cut into the same rows again.**
* `Token.Qualifying`: qualifiers, each with a double colon behind it.
-/

namespace GrowthAudit.Token

variable {o c t : Token} {inner row ts : List Token} {rows : List (List Token)} {depth : Int}

/-- Angle brackets and parentheses are nested in a row, taken together. -/
abbrev Nested : List Token → Prop := Balanced ["<", "("] [">", ")"]

/-- Angle brackets and parentheses are nested, and no comma stands outside them. -/
inductive Commaless : List Token → Prop
  | nil : Commaless []
  | other {t : Token} {ts : List Token} : t.isOneOf ["<", "("] = false →
      t.isOneOf [">", ")"] = false → t.text ≠ "," → Commaless ts → Commaless (t :: ts)
  | bracket {o c : Token} {inner ts : List Token} : o.isOneOf ["<", "("] = true →
      c.isOneOf [">", ")"] = true → Nested inner → Commaless ts →
      Commaless (o :: (inner ++ c :: ts))

/-- Rows with a comma between each two. -/
inductive CommaJoined : List (List Token) → List Token → Prop
  | single {row : List Token} : CommaJoined [row] row
  | cons {row : List Token} {comma : Token} {rows : List (List Token)} {ts : List Token} :
      comma.text = "," → CommaJoined rows ts → CommaJoined (row :: rows) (row ++ comma :: ts)

/-- Qualifiers, each with a double colon behind it. -/
inductive Qualifying : List Token → List Token → Prop
  | nil : Qualifying [] []
  | cons {q colons : Token} {qualifiers ts : List Token} : colons.text = "::" →
      Qualifying qualifiers ts → Qualifying (q :: qualifiers) (q :: colons :: ts)

/-! ### Words -/

/-- A token that is one of some words is none of others. -/
theorem isOneOf_eq_false {words others : List String} (ht : t.isOneOf words = true)
    (h : ∀ w ∈ words, others.contains w = false) : t.isOneOf others = false :=
  h t.text (List.contains_iff_mem.mp ht)

theorem text_ne {words : List String} {w : String} (ht : t.isOneOf words = true)
    (h : ∀ v ∈ words, [w].contains v = false) : t.text ≠ w :=
  isOneOf_singleton_eq_false.mp (isOneOf_eq_false ht h)

/-! ### Cutting at commas -/

theorem nesting_opening (ho : o.isOneOf ["<", "("] = true) : o.nesting = 1 := by
  rw [nesting, if_pos ho]

theorem nesting_closing (hc : c.isOneOf [">", ")"] = true) : c.nesting = -1 := by
  have hnot : c.isOneOf ["<", "("] = false := isOneOf_eq_false hc (by decide)
  rw [nesting, hnot, if_neg Bool.false_ne_true, if_pos hc]

theorem nesting_other (hopen : t.isOneOf ["<", "("] = false)
    (hclose : t.isOneOf [">", ")"] = false) : t.nesting = 0 := by
  rw [nesting, hopen, hclose, if_neg Bool.false_ne_true, if_neg Bool.false_ne_true]

theorem splitAt_ne_nil (depth : Int) (ts : List Token) : splitAt depth ts ≠ [] := by
  cases ts with
  | nil => exact List.cons_ne_nil _ _
  | cons t ts =>
    rw [splitAt]
    split
    · exact List.cons_ne_nil _ _
    · split <;> exact List.cons_ne_nil _ _

theorem splitAt_comma (ht : t.text = ",") : splitAt 0 (t :: ts) = [] :: splitAt 0 ts := by
  rw [splitAt, if_pos ⟨ht, rfl⟩]

/-- A token that is no comma outside brackets stays in front of what follows it. -/
theorem splitAt_keep (h : ¬ (t.text = "," ∧ depth = 0)) :
    splitAt depth (t :: ts) = (splitAt (depth + t.nesting) ts).modifyHead (t :: ·) := by
  rw [splitAt, if_neg h]
  cases hsplit : splitAt (depth + t.nesting) ts with
  | nil => exact absurd hsplit (splitAt_ne_nil _ _)
  | cons group groups => rfl

/-- Brackets stay together with what is between them, if that does. -/
theorem splitAt_bracket (ho : o.isOneOf ["<", "("] = true) (hc : c.isOneOf [">", ")"] = true)
    (hinner : ∀ us, splitAt (depth + 1) (inner ++ us) =
      (splitAt (depth + 1) us).modifyHead (inner ++ ·)) :
    splitAt depth (o :: (inner ++ c :: ts)) =
      (splitAt depth ts).modifyHead (fun group => o :: (inner ++ c :: group)) := by
  have hopening : ¬ (o.text = "," ∧ depth = 0) := fun h => text_ne ho (by decide) h.1
  have hclosing : ¬ (c.text = "," ∧ depth + 1 = 0) := fun h => text_ne hc (by decide) h.1
  rw [splitAt_keep hopening, nesting_opening ho, hinner, splitAt_keep hclosing, nesting_closing hc,
    Int.add_neg_cancel_right, List.modifyHead_modifyHead, List.modifyHead_modifyHead]
  rfl

/-- Inside brackets a nested row stays together, whatever commas it has. -/
theorem Nested.splitAt_append (h : Nested inner) (hdepth : 0 < depth) :
    splitAt depth (inner ++ ts) = (splitAt depth ts).modifyHead (inner ++ ·) := by
  induction h generalizing depth ts with
  | nil => exact (congrFun List.modifyHead_id _).symm
  | other hopen hclose _ ih =>
    rw [List.cons_append, splitAt_keep (fun hcut => Int.ne_of_gt hdepth hcut.2),
      nesting_other hopen hclose, Int.add_zero, ih hdepth, List.modifyHead_modifyHead]
    rfl
  | @bracket o c inner rest ho hc _ _ ihinner ihrest =>
    have hdeeper : 0 < depth + 1 := by omega
    rw [List.cons_append, List.append_assoc, List.cons_append,
      splitAt_bracket ho hc (fun _ => ihinner hdeeper), ihrest hdepth,
      List.modifyHead_modifyHead]
    simp [Function.comp_def]

/-- A row without commas outside brackets stays together. -/
theorem Commaless.splitAt_append (h : Commaless row) :
    splitAt 0 (row ++ ts) = (splitAt 0 ts).modifyHead (row ++ ·) := by
  induction h generalizing ts with
  | nil => exact (congrFun List.modifyHead_id _).symm
  | other hopen hclose hcomma _ ih =>
    rw [List.cons_append, splitAt_keep (fun hcut => hcomma hcut.1), nesting_other hopen hclose,
      Int.add_zero, ih, List.modifyHead_modifyHead]
    rfl
  | @bracket o c inner rest ho hc hinner _ ih =>
    rw [List.cons_append, List.append_assoc, List.cons_append,
      splitAt_bracket ho hc (fun _ => hinner.splitAt_append (by decide)), ih,
      List.modifyHead_modifyHead]
    simp [Function.comp_def]

theorem splitAt_of_joined (h : CommaJoined rows ts) (hrows : ∀ row ∈ rows, Commaless row) :
    splitAt 0 ts = rows := by
  induction h with
  | @single row =>
    have hrow : splitAt 0 (row ++ []) = (splitAt 0 []).modifyHead (row ++ ·) :=
      (hrows row List.mem_cons_self).splitAt_append
    rw [List.append_nil] at hrow
    rw [hrow, splitAt, List.modifyHead_cons, List.append_nil]
  | @cons row comma rows ts hcomma _ ih =>
    rw [(hrows row List.mem_cons_self).splitAt_append, splitAt_comma hcomma,
      ih fun r hr => hrows r (List.mem_cons_of_mem row hr), List.modifyHead_cons, List.append_nil]

/-- **Rows that are joined by commas come apart again.** -/
theorem splitCommas_of_joined (h : CommaJoined rows ts) (hrows : ∀ row ∈ rows, Commaless row)
    (hne : ∀ row ∈ rows, row ≠ []) : splitCommas ts = rows := by
  rw [splitCommas, splitAt_of_joined h hrows, List.filter_eq_self]
  intro row hrow
  rw [Bool.not_eq_true', List.isEmpty_eq_false_iff]
  exact hne row hrow

end GrowthAudit.Token
