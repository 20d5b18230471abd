import GrowthAudit.Dump.ContainerUse
import GrowthAudit.Proofs.Dump.Parentheses

/-!
# Links as shortcuts

A link saves the search for the bracket that closes another one.  Where the links of parentheses are
right nothing that is read behind a parenthesis depends on them, and the link of an angle bracket
does not matter where brackets are nested up to it.

* `Token.unlinked`, `Token.linked`: a row without links, and with the links that a stack finds.
* `Specifiers.read?_unlinked`, `Configuration.takesRvalue_unlinked`: right links may be taken away.
* `ContainerUse.firstArgument?_append`: behind nested brackets the search for the end of an argument
  goes on as in front of them, unless it has come to its end.
* `Token.AngleLink`: what the link of an angle bracket is.
* `links_are_shortcuts`: all three together.
-/

namespace GrowthAudit

namespace Token

variable {ts : List Token} {i depth position : Nat}

/-! ### Rows without links -/

def bare (t : Token) : Token := { t with link := none }

@[simp] theorem text_bare (t : Token) : t.bare.text = t.text := rfl

/-- The row without any link. -/
def unlinked (ts : List Token) : List Token := ts.map bare

/-- The row in which parentheses that belong together are linked with each other, and nothing else
is linked. -/
def linked (ts : List Token) : List Token := ts.mapIdx fun i t => { t with link := partner? ts i }

/-- The inner parentheses belong together; the outer ones are left over. -/
example : (linked ([")", "(", "(", ")"].map fun w => { text := w })).map (·.link) =
    [none, none, some 3, some 2] := by decide

theorem getElem?_unlinked : (unlinked ts)[i]? = ts[i]?.map bare := List.getElem?_map

theorem getElem?_linked :
    (linked ts)[i]? = ts[i]?.map fun t => { t with link := partner? ts i } :=
  List.getElem?_mapIdx

@[simp] theorem textOf_unlinked : textOf (unlinked ts)[i]? = textOf ts[i]? := by
  rw [getElem?_unlinked]
  cases ts[i]? <;> rfl

@[simp] theorem textOf_linked : textOf (linked ts)[i]? = textOf ts[i]? := by
  rw [getElem?_linked]
  cases ts[i]? <;> rfl

@[simp] theorem length_unlinked : (unlinked ts).length = ts.length := List.length_map _

@[simp] theorem unlinked_linked : unlinked (linked ts) = unlinked ts := by
  apply List.ext_getElem?
  intro i
  rw [getElem?_unlinked, getElem?_unlinked, getElem?_linked]
  cases ts[i]? <;> rfl

theorem closingFrom_unlinked : closingFrom depth position (unlinked ts) =
    closingFrom depth position ts := by
  induction ts generalizing depth position with
  | nil => rfl
  | cons t ts ih =>
    rw [unlinked] at ih ⊢
    simp only [List.map_cons, closingFrom, text_bare, ih]

theorem pairsFrom_unlinked {opened : List Nat} :
    pairsFrom opened position (unlinked ts) = pairsFrom opened position ts := by
  induction ts generalizing opened position with
  | nil => rfl
  | cons t ts ih =>
    rw [unlinked] at ih ⊢
    rw [List.map_cons, pairsFrom.eq_def, pairsFrom.eq_def]
    simp only [text_bare, ih]

theorem pairs_linked : pairs (linked ts) = pairs ts := by
  have h : pairsFrom [] 0 (unlinked (linked ts)) = pairsFrom [] 0 (linked ts) :=
    pairsFrom_unlinked
  rw [unlinked_linked, pairsFrom_unlinked] at h
  exact h.symm

theorem wellLinked_unlinked (ts : List Token) : WellLinked (unlinked ts) := by
  intro i _ _
  rw [getElem?_unlinked, List.mem_cons]
  left
  cases ts[i]? <;> rfl

theorem wellLinked_linked (ts : List Token) : WellLinked (linked ts) := by
  intro i _ h
  rw [textOf_linked] at h
  rw [pairs_linked, getElem?_linked, List.mem_cons, List.mem_singleton]
  cases ht : ts[i]? with
  | none => exact Or.inl rfl
  | some t => exact Or.inr (if_pos h)

theorem closing?_unlinked (hlinks : WellLinked ts) (h : textOf ts[i]? = "(") :
    closing? (unlinked ts) i = closing? ts i := by
  rw [closing?_of_wellLinked (wellLinked_unlinked ts) (textOf_unlinked.trans h),
    closing?_of_wellLinked hlinks h, unlinked, ← List.map_drop]
  exact closingFrom_unlinked

theorem between_unlinked (first : Nat) (last : Option Nat) :
    between (unlinked ts) first last = unlinked (between ts first last) := by
  cases last with
  | none => simp [between, unlinked]
  | some last =>
    simp only [between]
    split <;> simp [unlinked]

theorem map_text_unlinked : (unlinked ts).map (·.text) = ts.map (·.text) := by
  rw [unlinked, List.map_map]
  rfl

theorem isEmpty_unlinked : (unlinked ts).isEmpty = ts.isEmpty := List.isEmpty_map

theorem topLevelAt_unlinked : topLevelAt depth (unlinked ts) = unlinked (topLevelAt depth ts) := by
  induction ts generalizing depth with
  | nil => rfl
  | cons t ts ih =>
    rw [unlinked] at ih ⊢
    simp only [List.map_cons, topLevelAt, text_bare, ih, apply_ite unlinked]
    rfl

/-- What follows a token is what stands in front of a later one, that one and what follows it. -/
theorem between_none {t : Token} {j : Nat} (hij : i < j) (hj : ts[j]? = some t) :
    between ts i none = between ts i (some j) ++ t :: ts.drop (j + 1) := by
  obtain ⟨hlt, rfl⟩ := List.getElem?_eq_some_iff.mp hj
  have hdrop : (ts.drop (i + 1)).drop (j - i - 1) = ts[j] :: ts.drop (j + 1) := by
    have hsum : i + 1 + (j - i - 1) = j := by omega
    rw [List.drop_drop, hsum, List.drop_eq_getElem_cons hlt]
  simp only [between, if_pos hij]
  rw [← hdrop, List.take_append_drop]

end Token

/-! ### What is read behind a parenthesis -/

namespace Specifiers

variable {ts : List Token} (hlinks : Token.WellLinked ts)

include hlinks

theorem step_unlinked (i : Nat) (s : Specifiers) :
    step (Token.unlinked ts) i s = step ts i s := by
  simp only [step, Token.textOf_unlinked, Token.between_unlinked, Token.map_text_unlinked,
    Token.isEmpty_unlinked]
  by_cases hopen : Token.textOf ts[i + 1]? = "("
  · rw [Token.closing?_unlinked hlinks hopen]
  · simp [hopen]

theorem scan?_unlinked (bound i : Nat) (s : Specifiers) :
    scan? (Token.unlinked ts) bound i s = scan? ts bound i s := by
  induction bound generalizing i s with
  | zero => rfl
  | succ bound ih =>
    rw [scan?, scan?, Token.getElem?_unlinked]
    cases ts[i]? with
    | none => rfl
    | some t =>
      simp only [Option.map_some, step_unlinked hlinks, ih]
      rfl

/-- **The specifiers of a function do not depend on right links.** -/
theorem read?_unlinked (name : Option Nat) : read? (Token.unlinked ts) name = read? ts name := by
  cases name with
  | none => rfl
  | some i =>
    simp only [read?, Token.textOf_unlinked, Token.length_unlinked]
    by_cases hopen : Token.textOf ts[i + 1]? = "("
    · simp only [hopen, Token.closing?_unlinked hlinks hopen, scan?_unlinked hlinks]
    · simp only [hopen, if_false]

end Specifiers

namespace Configuration

variable {c : Configuration}

/-- **Whether a function takes an rvalue reference does not depend on right links.** -/
theorem takesRvalue_unlinked (hlinks : Token.WellLinked c.tokens) (f : MemberFunction) :
    { c with tokens := Token.unlinked c.tokens }.takesRvalue f = c.takesRvalue f := by
  unfold takesRvalue
  cases f.nameToken with
  | none => rfl
  | some i =>
    have hfind : (((Token.unlinked c.tokens).drop i).take 4).findIdx? (·.text == "(") =
        ((c.tokens.drop i).take 4).findIdx? (·.text == "(") := by
      rw [Token.unlinked, ← List.map_drop, ← List.map_take, List.findIdx?_map]
      rfl
    simp only [hfind]
    cases hk : ((c.tokens.drop i).take 4).findIdx? (·.text == "(") with
    | none => rfl
    | some k =>
      have hopen := (Token.findIdx?_opening_eq_some_iff.mp hk).2.1
      simp only [Token.closing?_unlinked hlinks hopen, Token.between_unlinked, Token.topLevel,
        Token.topLevelAt_unlinked]
      rw [Token.unlinked, List.any_map]
      rfl

end Configuration

/-! ### Angle brackets -/

namespace ContainerUse

variable {inner ts us : List Token} {t : Token} {depth : Nat}

theorem firstArgument?_opening (hopen : t.isOneOf ["<", "("] = true) :
    firstArgument? depth (t :: ts) = (firstArgument? (depth + 1) ts).map (t :: ·) := by
  rw [firstArgument?, if_pos hopen]

theorem firstArgument?_closing (hclose : t.isOneOf [">", ")"] = true) :
    firstArgument? depth (t :: ts) =
      if depth = 0 then some [] else (firstArgument? (depth - 1) ts).map (t :: ·) := by
  have hnot : ¬ t.isOneOf ["<", "("] = true := by
    simp only [Token.isOneOf, List.contains_cons, List.contains_nil, Bool.or_false, Bool.or_eq_true,
      beq_iff_eq] at hclose ⊢
    rcases hclose with h | h <;> simp [h]
  rw [firstArgument?, if_neg hnot, if_pos hclose]

/-- What a token that is no bracket does depends on the depth alone. -/
theorem firstArgument?_other (hopen : t.isOneOf ["<", "("] = false)
    (hclose : t.isOneOf [">", ")"] = false) :
    firstArgument? depth (t :: ts) =
      if t.text = "," ∧ depth = 0 then some []
      else if t.isOneOf [";", "\x7b", "\x7d"] then none
      else (firstArgument? depth ts).map (t :: ·) := by
  simp only [firstArgument?, hopen, hclose, Bool.false_eq_true, if_false]

/-- Behind nested brackets the search goes on at the depth in front of them. -/
theorem firstArgument?_append (h : Token.Balanced ["<", "("] [">", ")"] inner)
    (heq : firstArgument? depth ts = firstArgument? depth us) :
    firstArgument? depth (inner ++ ts) = firstArgument? depth (inner ++ us) := by
  induction h generalizing depth ts us with
  | nil => exact heq
  | other hopen hclose _ ih =>
    rw [List.cons_append, List.cons_append, firstArgument?_other hopen hclose,
      firstArgument?_other hopen hclose, ih heq]
  | @bracket o c inner rest ho hc _ _ ihinner ihrest =>
    have hclosed : firstArgument? (depth + 1) (c :: (rest ++ ts)) =
        firstArgument? (depth + 1) (c :: (rest ++ us)) := by
      rw [firstArgument?_closing hc, firstArgument?_closing hc, Nat.add_sub_cancel, ihrest heq]
    rw [List.cons_append, List.cons_append, List.append_assoc, List.append_assoc, List.cons_append,
      List.cons_append, firstArgument?_opening ho, firstArgument?_opening ho, ihinner hclosed]

/-- **The link of an angle bracket does not matter** where it leads to a closing bracket and
brackets are nested up to there. -/
theorem firstArgument?_link {i j : Nat} {t : Token} (hj : ts[j]? = some t)
    (hclose : t.isOneOf [">", ")"] = true)
    (hinner : Token.Balanced ["<", "("] [">", ")"] (Token.between ts i (some j))) :
    firstArgument? 0 (Token.between ts i (some j)) =
      firstArgument? 0 (Token.between ts i none) := by
  by_cases hij : i < j
  · have hend : firstArgument? 0 [] = firstArgument? 0 (t :: ts.drop (j + 1)) := by
      rw [firstArgument?_closing hclose, if_pos rfl, firstArgument?]
    rw [Token.between_none hij hj, ← firstArgument?_append hinner hend, List.append_nil]
  · simp only [Token.between, if_neg hij]

end ContainerUse

/-- The link of the angle bracket at `i` leads to `j`.  A dump links an opening angle bracket with
the one that closes the argument list and with nothing else; it is enough that the bracket at `j` is
one that closes something. -/
structure Token.AngleLink (ts : List Token) (i j : Nat) : Prop where
  opening : ∃ t, ts[i]? = some t ∧ t.text = "<" ∧ t.link = some j
  closing : ∃ u, ts[j]? = some u ∧ u.isOneOf [">", ")"] = true

/-- **Links are shortcuts.**  With the links that belong to its parentheses, also where some are
left over, a row is read as without any links: the specifiers of every function, and whether it
takes an rvalue reference.  And with the link of an angle bracket the first template argument is the
same as without it, where brackets are nested up to there. -/
theorem links_are_shortcuts :
    (∀ (ts : List Token) (name : Option Nat), ∃ r,
        Specifiers.read? (Token.linked ts) name = some r ∧
          Specifiers.read? (Token.unlinked ts) name = some r) ∧
      (∀ (c : Configuration) (f : MemberFunction),
        { c with tokens := Token.linked c.tokens }.takesRvalue f =
          { c with tokens := Token.unlinked c.tokens }.takesRvalue f) ∧
      ∀ (ts : List Token) (i j : Nat), Token.AngleLink ts i j →
        Token.Balanced ["<", "("] [">", ")"] (Token.between ts i (some j)) →
        ContainerUse.firstArgument? 0 (Token.between ts i (some j)) =
          ContainerUse.firstArgument? 0 (Token.between ts i none) := by
  refine ⟨fun ts name => ?_, fun c f => ?_, ?_⟩
  · have hread := Specifiers.read?_eq_some (.of_wellLinked (Token.wellLinked_linked ts)) name
    refine ⟨_, hread, ?_⟩
    rw [← hread, ← Specifiers.read?_unlinked (Token.wellLinked_linked ts), Token.unlinked_linked]
  · have h := Configuration.takesRvalue_unlinked (c := { c with tokens := Token.linked c.tokens })
      (Token.wellLinked_linked c.tokens) f
    rw [← h]
    simp only [Token.unlinked_linked]
  · intro ts i j hlink hinner
    obtain ⟨u, hu, hclose⟩ := hlink.closing
    exact ContainerUse.firstArgument?_link hu hclose hinner

/-- `vector < pair < int > , x > v` with a link between the outer brackets. -/
def nestedArgumentSample : List Token :=
  [{ text := "vector" }, { text := "<", link := some 8 }, { text := "pair" }, { text := "<" },
    { text := "int" }, { text := ">" }, { text := "," }, { text := "x" },
    { text := ">", link := some 1 }, { text := "v" }]

/-- The comma ends the argument in front of the link, and it does so without the link. -/
theorem links_are_shortcuts_sample :
    Token.AngleLink nestedArgumentSample 1 8 ∧
      Token.Balanced ["<", "("] [">", ")"] (Token.between nestedArgumentSample 1 (some 8)) ∧
      (ContainerUse.firstArgument? 0 (Token.between nestedArgumentSample 1 (some 8))).map
        (·.map (·.text)) = some ["pair", "<", "int", ">"] ∧
      ContainerUse.firstArgument? 0 (Token.between nestedArgumentSample 1 (some 8)) =
        ContainerUse.firstArgument? 0 (Token.between nestedArgumentSample 1 none) := by
  have hlink : Token.AngleLink nestedArgumentSample 1 8 :=
    ⟨⟨_, rfl, rfl, rfl⟩, ⟨_, rfl, rfl⟩⟩
  have hbracket : Token.Balanced ["<", "("] [">", ")"]
      (Token.between nestedArgumentSample 2 (some 8)) :=
    @Token.Balanced.bracket _ _ _ _ [{ text := "int" }] _ rfl rfl (.other rfl rfl .nil)
      (.other rfl rfl (.other rfl rfl .nil))
  have hinner : Token.Balanced ["<", "("] [">", ")"]
      (Token.between nestedArgumentSample 1 (some 8)) := .other rfl rfl hbracket
  refine ⟨hlink, hinner, by decide, ?_⟩
  exact links_are_shortcuts.2.2 nestedArgumentSample 1 8 hlink hinner

end GrowthAudit
