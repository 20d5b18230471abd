import GrowthAudit.Proofs.Dump.Loops
import Mathlib.Data.List.Basic

/-!
# Parentheses and their links

Which parentheses belong together is found with a stack: a closing one belongs to the last one that
is still open.  Parentheses may be left over on both sides.

* `Token.pairs`: the pairs that the stack finds, by position.
* `Token.lookup_pairs`: counting from an opening parenthesis finds its partner, or none for one that
  is never closed.
* `Token.WellLinked`: every opening parenthesis is linked to its partner or to nothing.
  `Token.closing?_of_wellLinked`: such links do not change what closes a parenthesis.
* `Token.Balanced`: rows in which brackets are nested, and `Token.closing?_of_balanced`: the
  parentheses around such a row belong together.
-/

namespace GrowthAudit

namespace Token

variable {ts front back inner : List Token} {o c t : Token} {depth position i : Nat}

theorem getElem?_append_cons : (front ++ t :: back)[front.length]? = some t := by
  rw [List.getElem?_append_right (Nat.le_refl _), Nat.sub_self, List.getElem?_cons_zero]

theorem textOf_append_cons : textOf (front ++ t :: back)[front.length]? = t.text := by
  rw [getElem?_append_cons]
  rfl

theorem textOf_append_cons_succ :
    textOf (front ++ t :: back)[front.length + 1]? = textOf back.head? := by
  rw [List.getElem?_append_right (Nat.le_add_right _ 1), Nat.add_sub_cancel_left,
    List.getElem?_cons_succ, List.head?_eq_getElem?]

/-- A position inside a row cuts it in two. -/
theorem exists_front_of_textOf {w : String} (hw : w ≠ "") (h : textOf ts[i]? = w) :
    ∃ front t back, ts = front ++ t :: back ∧ front.length = i ∧ t.text = w := by
  cases ht : ts[i]? with
  | none =>
    rw [ht] at h
    exact absurd h.symm hw
  | some t =>
    obtain ⟨hi, rfl⟩ := List.getElem?_eq_some_iff.mp ht
    rw [ht] at h
    refine ⟨ts.take i, ts[i], ts.drop (i + 1), ?_, List.length_take_of_le (Nat.le_of_lt hi), h⟩
    rw [← List.drop_eq_getElem_cons hi, List.take_append_drop]

/-- The first parenthesis that opens among some tokens stands where it is found. -/
theorem findIdx?_opening_eq_some_iff {n k : Nat} :
    ((ts.drop i).take n).findIdx? (·.text == "(") = some k ↔
      k < n ∧ textOf ts[i + k]? = "(" ∧ ∀ j < k, textOf ts[i + j]? ≠ "(" := by
  have hget : ∀ j (hj : j < ((ts.drop i).take n).length),
      textOf ts[i + j]? = ((ts.drop i).take n)[j].text := by
    intro j hj
    rw [List.getElem_take, List.getElem_drop, List.getElem?_eq_getElem]
    rfl
  rw [List.findIdx?_eq_some_iff_getElem]
  constructor
  · rintro ⟨hk, htext, hbefore⟩
    have hlength := hk
    rw [List.length_take, List.length_drop] at hlength
    refine ⟨by omega, by rw [hget k hk]; exact eq_of_beq htext, fun j hj => ?_⟩
    rw [hget j (Nat.lt_trans hj hk)]
    simpa using hbefore j hj
  · rintro ⟨hk, htext, hbefore⟩
    have hlt : i + k < ts.length := by
      by_contra hnot
      rw [List.getElem?_eq_none (by omega)] at htext
      exact absurd htext (by decide)
    have hlength : k < ((ts.drop i).take n).length := by
      rw [List.length_take, List.length_drop]
      omega
    refine ⟨hlength, ?_, fun j hj => ?_⟩
    · rw [← hget k hlength, htext]
      rfl
    · have htext := hbefore j hj
      rw [hget j (Nat.lt_trans hj hlength)] at htext
      simpa using htext

/-! ### Pairs of parentheses -/

/-- The pairs of parentheses in a row that starts at a position, behind parentheses that are still
open, the innermost first. -/
def pairsFrom : (opened : List Nat) → (position : Nat) → List Token → List (Nat × Nat)
  | _, _, [] => []
  | opened, position, t :: ts =>
    if t.text = "(" then pairsFrom (position :: opened) (position + 1) ts
    else if t.text = ")" then
      match opened with
      | [] => pairsFrom [] (position + 1) ts
      | i :: opened => (i, position) :: pairsFrom opened (position + 1) ts
    else pairsFrom opened (position + 1) ts

/-- The pairs of parentheses that belong together, each with the position of the opening one. -/
def pairs (ts : List Token) : List (Nat × Nat) := pairsFrom [] 0 ts

/-- The parenthesis that belongs to the one at a position. -/
def partner? (ts : List Token) (i : Nat) : Option Nat :=
  if textOf ts[i]? = "(" then (pairs ts).lookup i else ((pairs ts).map Prod.swap).lookup i

section
variable {opened : List Nat}

theorem pairsFrom_opening (ht : t.text = "(") :
    pairsFrom opened position (t :: ts) = pairsFrom (position :: opened) (position + 1) ts := by
  rw [pairsFrom.eq_def]
  exact if_pos ht

theorem pairsFrom_left_over (ht : t.text = ")") :
    pairsFrom [] position (t :: ts) = pairsFrom [] (position + 1) ts := by
  simp [pairsFrom, ht]

theorem pairsFrom_closing (ht : t.text = ")") :
    pairsFrom (i :: opened) position (t :: ts) =
      (i, position) :: pairsFrom opened (position + 1) ts := by
  simp [pairsFrom, ht]

theorem pairsFrom_other (hopen : ¬ t.text = "(") (hclose : ¬ t.text = ")") :
    pairsFrom opened position (t :: ts) = pairsFrom opened (position + 1) ts := by
  rw [pairsFrom.eq_def]
  simp only [hopen, hclose, if_false]

end

/-- The partner of an open parenthesis is where as many have been closed as were opened after it. -/
theorem lookup_pairsFrom_opened {above below : List Nat} (hi : i < position) (habove : i ∉ above) :
    (pairsFrom (above ++ i :: below) position ts).lookup i =
      closingFrom (above.length + 1) position ts := by
  induction ts generalizing above position with
  | nil => rfl
  | cons t ts ih =>
    rw [closingFrom]
    by_cases hopen : t.text = "("
    · have hnot : i ∉ position :: above := by
        rw [List.mem_cons, not_or]
        exact ⟨Nat.ne_of_lt hi, habove⟩
      rw [if_pos hopen, pairsFrom_opening hopen]
      exact ih (Nat.lt_succ_of_lt hi) hnot
    · rw [if_neg hopen]
      by_cases hclose : t.text = ")"
      · rw [if_pos hclose]
        cases above with
        | nil =>
          rw [List.nil_append, pairsFrom_closing hclose, List.lookup_cons_self]
          rfl
        | cons k above =>
          rw [List.mem_cons, not_or] at habove
          have hne : (i == k) = false := beq_eq_false_iff_ne.mpr habove.1
          rw [List.cons_append, pairsFrom_closing hclose, List.lookup_cons, hne, List.length_cons,
            if_neg (by omega), Nat.add_sub_cancel]
          exact ih (Nat.lt_succ_of_lt hi) habove.2
      · rw [if_neg hclose, pairsFrom_other hopen hclose]
        exact ih (Nat.lt_succ_of_lt hi) habove

theorem lookup_pairsFrom_front {opened : List Nat} (hopened : ∀ k ∈ opened, k < position)
    (ho : o.text = "(") :
    (pairsFrom opened position (front ++ o :: back)).lookup (position + front.length) =
      closingFrom 1 (position + front.length + 1) back := by
  induction front generalizing opened position with
  | nil =>
    rw [List.nil_append, pairsFrom_opening ho]
    have hself : (pairsFrom ([] ++ position :: opened) (position + 1) back).lookup position =
        closingFrom 1 (position + 1) back :=
      lookup_pairsFrom_opened (Nat.lt_succ_self position) List.not_mem_nil
    exact hself
  | cons t front ih =>
    have hlater : ∀ k ∈ opened, k < position + 1 := fun k hk => Nat.lt_succ_of_lt (hopened k hk)
    have hpos : position + (t :: front).length = position + 1 + front.length := by
      rw [List.length_cons]
      omega
    rw [List.cons_append, hpos]
    by_cases hopen : t.text = "("
    · rw [pairsFrom_opening hopen]
      refine ih fun k hk => ?_
      rcases List.mem_cons.mp hk with rfl | hk
      · exact Nat.lt_succ_self k
      · exact hlater k hk
    · by_cases hclose : t.text = ")"
      · cases opened with
        | nil =>
          rw [pairsFrom_left_over hclose]
          exact ih nofun
        | cons k opened =>
          have hk := hopened k List.mem_cons_self
          have hne : (position + 1 + front.length == k) = false := by
            rw [beq_eq_false_iff_ne]
            omega
          rw [pairsFrom_closing hclose, List.lookup_cons, hne]
          exact ih fun l hl => hlater l (List.mem_cons_of_mem k hl)
      · rw [pairsFrom_other hopen hclose]
        exact ih hlater

/-- **Counting finds the partner** of an opening parenthesis, wherever parentheses are left over. -/
theorem lookup_pairs (h : textOf ts[i]? = "(") :
    (pairs ts).lookup i = closingFrom 0 i (ts.drop i) := by
  obtain ⟨front, o, back, rfl, rfl, ho⟩ := exists_front_of_textOf (by decide) h
  have hlookup : (pairsFrom [] 0 (front ++ o :: back)).lookup (0 + front.length) =
      closingFrom 1 (0 + front.length + 1) back := lookup_pairsFrom_front nofun ho
  rw [Nat.zero_add] at hlookup
  rw [pairs, hlookup, List.drop_left, closingFrom, if_pos ho]

/-! ### Links -/

/-- The links of opening parentheses are right where there are any. -/
def WellLinked (ts : List Token) : Prop :=
  ∀ i < ts.length, textOf ts[i]? = "(" → ts[i]?.bind (·.link) ∈ [none, (pairs ts).lookup i]

instance (ts : List Token) : Decidable (WellLinked ts) :=
  inferInstanceAs (Decidable (∀ i < ts.length,
    textOf ts[i]? = "(" → ts[i]?.bind (·.link) ∈ [none, (pairs ts).lookup i]))

/-- A right link leads to where counting comes. -/
theorem WellLinked.link_eq (hlinks : WellLinked ts) (h : textOf ts[i]? = "(") {j : Nat}
    (hj : ts[i]?.bind (·.link) = some j) : closingFrom 0 i (ts.drop i) = some j := by
  have hi : i < ts.length := by
    obtain ⟨t, ht, -⟩ := Option.bind_eq_some_iff.mp hj
    exact (List.getElem?_eq_some_iff.mp ht).1
  have hlink := hlinks i hi h
  rw [hj, List.mem_cons, List.mem_singleton] at hlink
  rw [← lookup_pairs h, ← hlink.resolve_left nofun]

/-- Right links only tell what counting would find. -/
theorem closing?_of_wellLinked (hlinks : WellLinked ts) (h : textOf ts[i]? = "(") :
    closing? ts i = closingFrom 0 i (ts.drop i) := by
  rw [closing?]
  split
  next j hj => exact (hlinks.link_eq h hj).symm
  next => rfl

theorem LinksForward.of_wellLinked (hlinks : WellLinked ts) : LinksForward ts := by
  intro i _ h j hj
  have hcount := hlinks.link_eq h hj
  obtain ⟨front, o, back, rfl, rfl, ho⟩ := exists_front_of_textOf (by decide) h
  rw [List.drop_left, closingFrom, if_pos ho] at hcount
  exact le_of_closingFrom hcount

/-! ### Nested brackets -/

/-- The brackets in a row are nested: what opens one is closed behind it, inside what is open around
it.  Which of the closing brackets it is does not matter. -/
inductive Balanced (opening closing : List String) : List Token → Prop
  | nil : Balanced opening closing []
  | other {t : Token} {ts : List Token} : t.isOneOf opening = false → t.isOneOf closing = false →
      Balanced opening closing ts → Balanced opening closing (t :: ts)
  | bracket {o c : Token} {inner ts : List Token} : o.isOneOf opening = true →
      c.isOneOf closing = true → Balanced opening closing inner → Balanced opening closing ts →
      Balanced opening closing (o :: (inner ++ c :: ts))

/-- The parentheses in a row are nested; other brackets are tokens like any other. -/
abbrev BalancedParentheses : List Token → Prop := Balanced ["("] [")"]

theorem isOneOf_singleton {w : String} : t.isOneOf [w] = true ↔ t.text = w := by
  simp [isOneOf]

theorem isOneOf_singleton_eq_false {w : String} : t.isOneOf [w] = false ↔ ¬ t.text = w := by
  simp [isOneOf]

/-- Counting passes over a row in which parentheses are nested. -/
theorem BalancedParentheses.closingFrom_append (h : BalancedParentheses inner) :
    closingFrom (depth + 1) position (inner ++ ts) =
      closingFrom (depth + 1) (position + inner.length) ts := by
  induction h generalizing depth position ts with
  | nil => rfl
  | @other t rest hopen hclose _ ih =>
    rw [isOneOf_singleton_eq_false] at hopen hclose
    rw [List.cons_append, closingFrom, if_neg hopen, if_neg hclose, ih, List.length_cons]
    congr 1
    omega
  | @bracket o c inner rest ho hc _ _ ihinner ihrest =>
    rw [isOneOf_singleton] at ho hc
    have hnot : ¬ c.text = "(" := by simp [hc]
    have hdepth : ¬ depth + 1 + 1 = 1 := by omega
    rw [List.cons_append, List.append_assoc, List.cons_append, closingFrom, if_pos ho, ihinner,
      closingFrom, if_neg hnot, if_pos hc, if_neg hdepth, Nat.add_sub_cancel, ihrest]
    congr 1
    simp only [List.length_cons, List.length_append]
    omega

/-- Parentheses with a nested row between them belong together. -/
theorem closing?_of_balanced (hlinks : WellLinked (front ++ o :: (inner ++ c :: back)))
    (ho : o.text = "(") (hc : c.text = ")") (hinner : BalancedParentheses inner) :
    closing? (front ++ o :: (inner ++ c :: back)) front.length =
      some (front.length + 1 + inner.length) := by
  have hnot : ¬ c.text = "(" := by simp [hc]
  rw [closing?_of_wellLinked hlinks (textOf_append_cons.trans ho), List.drop_left, closingFrom,
    if_pos ho, hinner.closingFrom_append, closingFrom, if_neg hnot, if_pos hc, if_pos rfl]

/-- What stands between two parentheses. -/
theorem between_append_cons :
    between (front ++ o :: (inner ++ c :: back)) front.length
      (some (front.length + 1 + inner.length)) = inner := by
  have hlt : front.length < front.length + 1 + inner.length := by omega
  have hlength : front.length + 1 + inner.length - front.length - 1 = inner.length := by omega
  have hdrop : (front ++ o :: (inner ++ c :: back)).drop (front.length + 1) =
      inner ++ c :: back := by
    rw [List.drop_append, List.drop_eq_nil_of_le (Nat.le_succ _), Nat.add_sub_cancel_left]
    rfl
  simp only [between, if_pos hlt, hlength, hdrop]
  exact List.take_left

end Token

end GrowthAudit
