import GrowthAudit.Proofs.Dump.Parentheses

/-!
# Declarators

What is read back from the declarator of a function: behind its name and its parameters there may be
an exception specification, among words that say nothing about it, and a default definition or a
deletion, up to the body, the end of the declaration or a list of initialisers.

* `Specifiers.Written`, `Specifiers.Defined`: how an exception specification, a default definition
  and a deletion are written.
* `Specifiers.Declarator`: the parts of a declarator with the specifiers that it says.
* `Specifiers.Reads`: what the scan reads from a part of a row, wherever the part stands.  Parts are
  read one after the other (`Specifiers.Reads.append`).
* `Specifiers.read?_declarator`: **the specifiers of a declarator are read back**, also where its
  parameters and conditions contain the words that the scan looks for.
-/

namespace GrowthAudit

namespace Specifiers

open Token (BalancedParentheses WellLinked)

/-! ### How specifiers are written -/

/-- A token that says nothing about the specifiers of a function. -/
def isPlain (t : Token) : Bool :=
  !t.isOneOf ["noexcept", "throw", "=", "\x7b", ";", ":"]

/-- How an exception specification is written.  Conditions and lists of types are any tokens in
which parentheses are nested. -/
inductive Written : ExceptionSpec → List Token → Prop
  | absent : Written .absent []
  | noexceptPlain {w : Token} : w.text = "noexcept" → Written .noexceptPlain [w]
  | noexceptTrue {w o t c : Token} : w.text = "noexcept" → o.text = "(" → t.text = "true" →
      c.text = ")" → Written .noexceptTrue [w, o, t, c]
  | noexceptFalse {w o t c : Token} : w.text = "noexcept" → o.text = "(" → t.text = "false" →
      c.text = ")" → Written .noexceptFalse [w, o, t, c]
  | noexceptDependent {w o c : Token} {condition : List Token} : w.text = "noexcept" →
      o.text = "(" → BalancedParentheses condition → c.text = ")" →
      condition.map (·.text) ≠ ["true"] → condition.map (·.text) ≠ ["false"] →
      Written .noexceptDependent (w :: o :: (condition ++ [c]))
  | throwNothing {w o c : Token} : w.text = "throw" → o.text = "(" → c.text = ")" →
      Written .throwNothing [w, o, c]
  | throwSome {w o c : Token} {types : List Token} : w.text = "throw" → o.text = "(" →
      BalancedParentheses types → types ≠ [] → c.text = ")" →
      Written .throwSome (w :: o :: (types ++ [c]))

/-- How a function is defaulted or deleted. -/
inductive Defined : (isDefaulted isDeleted : Bool) → List Token → Prop
  | elsewhere : Defined false false []
  | default {e w : Token} : e.text = "=" → w.text = "default" → Defined true false [e, w]
  | delete {e w : Token} : e.text = "=" → w.text = "delete" → Defined false true [e, w]

/-- A declarator from the name of the function on, which says the given specifiers.  Anything may
follow the token at which it stops. -/
structure Declarator (r : Specifiers) where
  name : Token
  opening : Token
  parameters : List Token
  closing : Token
  before : List Token
  specification : List Token
  behind : List Token
  definition : List Token
  stop : Token
  rest : List Token
  opening_text : opening.text = "("
  parameters_balanced : BalancedParentheses parameters
  closing_text : closing.text = ")"
  before_plain : ∀ t ∈ before, isPlain t = true
  written : Written r.spec specification
  behind_plain : ∀ t ∈ behind, isPlain t = true
  /-- A parenthesis behind a plain `noexcept` would belong to it. -/
  behind_head : Token.textOf behind.head? ≠ "("
  defined : Defined r.isDefaulted r.isDeleted definition
  stop_isEnd : isEnd stop = true

/-- What says the specifiers in a declarator. -/
def Declarator.specifiers {r : Specifiers} (d : Declarator r) : List Token :=
  d.before ++ (d.specification ++ (d.behind ++ d.definition))

/-- The tokens of a declarator and all that follows. -/
def Declarator.tokens {r : Specifiers} (d : Declarator r) : List Token :=
  d.name :: d.opening :: (d.parameters ++ d.closing :: (d.specifiers ++ d.stop :: d.rest))

/-! ### Single steps -/

variable {front back inner part part' : List Token} {w o c t : Token} {s s' s'' r : Specifiers}

theorem isPlain_iff : isPlain t = true ↔
    t.text ≠ "noexcept" ∧ t.text ≠ "throw" ∧ t.text ≠ "=" ∧ isEnd t = false := by
  simp [isPlain, isEnd, Token.isOneOf]

theorem step_plain (ht : isPlain t = true) :
    step (front ++ t :: back) front.length s = (s, some (front.length + 1)) := by
  obtain ⟨hnoexcept, hthrow, hequals, -⟩ := isPlain_iff.mp ht
  simp only [step, Token.textOf_append_cons, hnoexcept, hthrow, hequals, false_and, if_false]

/-- The parentheses behind a word belong together, and there is what was written between them. -/
theorem closing?_behind (hlinks : WellLinked (front ++ w :: o :: (inner ++ c :: back)))
    (ho : o.text = "(") (hinner : BalancedParentheses inner) (hc : c.text = ")") :
    Token.closing? (front ++ w :: o :: (inner ++ c :: back)) (front.length + 1) =
      some (front.length + 2 + inner.length) ∧
    Token.between (front ++ w :: o :: (inner ++ c :: back)) (front.length + 1)
      (some (front.length + 2 + inner.length)) = inner := by
  rw [List.append_cons] at hlinks ⊢
  have hlength : (front ++ [w]).length = front.length + 1 := List.length_append
  have hclosing := Token.closing?_of_balanced hlinks ho hc hinner
  have hbetween : Token.between (front ++ [w] ++ o :: (inner ++ c :: back)) (front ++ [w]).length
      (some ((front ++ [w]).length + 1 + inner.length)) = inner := Token.between_append_cons
  rw [hlength] at hclosing hbetween
  exact ⟨hclosing, hbetween⟩

theorem step_noexcept (hlinks : WellLinked (front ++ w :: o :: (inner ++ c :: back)))
    (hw : w.text = "noexcept") (ho : o.text = "(") (hinner : BalancedParentheses inner)
    (hc : c.text = ")") :
    step (front ++ w :: o :: (inner ++ c :: back)) front.length s =
      ({ s with spec := ofCondition (inner.map (·.text)) },
        some (front.length + 2 + inner.length + 1)) := by
  obtain ⟨hclosing, hbetween⟩ := closing?_behind hlinks ho hinner hc
  simp only [step, Token.textOf_append_cons, Token.textOf_append_cons_succ, hw, List.head?_cons,
    hclosing, hbetween]
  simp [Token.textOf, ho]

theorem step_throw (hlinks : WellLinked (front ++ w :: o :: (inner ++ c :: back)))
    (hw : w.text = "throw") (ho : o.text = "(") (hinner : BalancedParentheses inner)
    (hc : c.text = ")") :
    step (front ++ w :: o :: (inner ++ c :: back)) front.length s =
      ({ s with spec := if inner.isEmpty then .throwNothing else .throwSome },
        some (front.length + 2 + inner.length + 1)) := by
  obtain ⟨hclosing, hbetween⟩ := closing?_behind hlinks ho hinner hc
  simp only [step, Token.textOf_append_cons, Token.textOf_append_cons_succ, hw, List.head?_cons,
    hclosing, hbetween]
  simp [Token.textOf, ho]

theorem step_noexceptPlain (hw : w.text = "noexcept") (hnext : Token.textOf back.head? ≠ "(") :
    step (front ++ w :: back) front.length s =
      ({ s with spec := .noexceptPlain }, some (front.length + 1)) := by
  simp only [step, Token.textOf_append_cons, Token.textOf_append_cons_succ, hw, if_true,
    if_neg hnext]

theorem step_equals (hw : w.text = "=") :
    step (front ++ w :: back) front.length s =
      ({ s with
          isDefaulted := s.isDefaulted || Token.textOf back.head? == "default"
          isDeleted := s.isDeleted || Token.textOf back.head? == "delete" },
        some (front.length + 1)) := by
  simp only [step, Token.textOf_append_cons, Token.textOf_append_cons_succ, hw]
  simp

/-! ### Reading part by part -/

/-- The scan gets from one position to another, and what it has read becomes more. -/
inductive Scans (ts : List Token) : Nat → Specifiers → Nat → Specifiers → Prop
  | refl {i : Nat} {s : Specifiers} : Scans ts i s i s
  | step {i j k : Nat} {t : Token} {s s' s'' : Specifiers} : ts[i]? = some t → isEnd t = false →
      Specifiers.step ts i s = (s', some j) → Scans ts j s' k s'' → Scans ts i s k s''

theorem Scans.trans {ts : List Token} {i j k : Nat} (h : Scans ts i s j s')
    (h' : Scans ts j s' k s'') : Scans ts i s k s'' := by
  induction h with
  | refl => exact h'
  | step ht hend hstep _ ih => exact .step ht hend hstep (ih h')

/-- What the scan has read where it stops is what it answers. -/
theorem Scans.exists_scan? {ts : List Token} {i j : Nat} (h : Scans ts i s j r)
    (ht : ts[j]? = some t) (hend : isEnd t = true) : ∃ bound, scan? ts bound i s = some r := by
  induction h with
  | refl => exact ⟨1, by simp [scan?, ht, hend]⟩
  | step hu hnot hstep _ ih =>
    obtain ⟨bound, hscan⟩ := ih ht
    exact ⟨bound + 1, by simp [scan?, hu, hnot, hstep, hscan]⟩

/-- From a part of a row, in front of the rest of it, the scan reads what makes the first of two
specifiers the second, wherever the part stands. -/
def Reads (part back : List Token) (s s' : Specifiers) : Prop :=
  ∀ front, WellLinked (front ++ (part ++ back)) →
    Scans (front ++ (part ++ back)) front.length s (front.length + part.length) s'

theorem Reads.nil : Reads [] back s s := fun _ _ => .refl

/-- Parts are read one after the other. -/
theorem Reads.append (h : Reads part (part' ++ back) s s') (h' : Reads part' back s' s'') :
    Reads (part ++ part') back s s'' := by
  intro front hlinks
  rw [List.append_assoc] at hlinks ⊢
  have hfirst := h front hlinks
  rw [← List.append_assoc] at hlinks hfirst ⊢
  have hsecond := h' (front ++ part) hlinks
  rw [List.length_append] at hsecond
  rw [List.length_append, ← Nat.add_assoc]
  exact hfirst.trans hsecond

/-- A part that is read in one step. -/
theorem Reads.single (hend : isEnd w = false)
    (hstep : ∀ front, WellLinked (front ++ w :: (part ++ back)) →
      step (front ++ w :: (part ++ back)) front.length s =
        (s', some (front.length + part.length + 1))) :
    Reads (w :: part) back s s' :=
  fun front hlinks => .step Token.getElem?_append_cons hend (hstep front hlinks) .refl

theorem Reads.plain (hpart : ∀ t ∈ part, isPlain t = true) : Reads part back s s := by
  induction part with
  | nil => exact .nil
  | cons t part ih =>
    have hplain := hpart t List.mem_cons_self
    have hone : Reads [t] (part ++ back) s s :=
      .single (isPlain_iff.mp hplain).2.2.2 fun _ _ => step_plain hplain
    exact hone.append (ih fun u hu => hpart u (List.mem_cons_of_mem t hu))

theorem isEnd_of_text {word : String} (hw : w.text = word)
    (hword : ["\x7b", ";", ":"].contains word = false) : isEnd w = false := by
  rw [isEnd, Token.isOneOf, hw, hword]

theorem isPlain_of_text {word : String} (ht : t.text = word)
    (hword : ["noexcept", "throw", "=", "\x7b", ";", ":"].contains word = false) :
    isPlain t = true := by
  rw [isPlain, Token.isOneOf, ht, hword, Bool.not_false]

/-- A word with its parentheses is read in one step. -/
theorem Reads.parenthesised (hend : isEnd w = false)
    (hstep : ∀ front, WellLinked (front ++ w :: o :: (inner ++ c :: back)) →
      step (front ++ w :: o :: (inner ++ c :: back)) front.length s =
        (s', some (front.length + 2 + inner.length + 1))) :
    Reads (w :: o :: (inner ++ [c])) back s s' := by
  have hrow : o :: (inner ++ [c]) ++ back = o :: (inner ++ c :: back) := by
    rw [List.cons_append, List.append_assoc, List.singleton_append]
  refine .single hend fun front hlinks => ?_
  have hlength : front.length + (o :: (inner ++ [c])).length = front.length + 2 + inner.length := by
    simp only [List.length_cons, List.length_append, List.length_nil]
    omega
  rw [hrow] at hlinks ⊢
  rw [hlength]
  exact hstep front hlinks

theorem Reads.noexcept (hw : w.text = "noexcept") (ho : o.text = "(")
    (hinner : BalancedParentheses inner) (hc : c.text = ")") :
    Reads (w :: o :: (inner ++ [c])) back s { s with spec := ofCondition (inner.map (·.text)) } :=
  .parenthesised (isEnd_of_text hw rfl) fun _ hlinks => step_noexcept hlinks hw ho hinner hc

theorem Reads.throw (hw : w.text = "throw") (ho : o.text = "(")
    (hinner : BalancedParentheses inner) (hc : c.text = ")") :
    Reads (w :: o :: (inner ++ [c])) back s
      { s with spec := if inner.isEmpty then .throwNothing else .throwSome } :=
  .parenthesised (isEnd_of_text hw rfl) fun _ hlinks => step_throw hlinks hw ho hinner hc

/-- A single word is a nested row. -/
theorem balanced_singleton {word : String} (ht : t.text = word)
    (hopen : ["("].contains word = false) (hclose : [")"].contains word = false) :
    BalancedParentheses [t] := by
  rw [← ht] at hopen hclose
  exact .other hopen hclose .nil

/-- **An exception specification is read as it is written.** -/
theorem Written.reads {spec : ExceptionSpec} (h : Written spec part)
    (hnext : Token.textOf back.head? ≠ "(") : Reads part back {} { spec } := by
  cases h with
  | absent => exact .nil
  | noexceptPlain hw =>
    exact .single (isEnd_of_text hw rfl) fun _ _ => step_noexceptPlain hw hnext
  | @noexceptTrue w o t c hw ho ht hc =>
    have h : Reads (w :: o :: ([t] ++ [c])) back {} { spec := ofCondition ([t].map (·.text)) } :=
      .noexcept hw ho (balanced_singleton ht rfl rfl) hc
    rwa [List.map_singleton, ht, ofCondition, if_pos rfl] at h
  | @noexceptFalse w o t c hw ho ht hc =>
    have h : Reads (w :: o :: ([t] ++ [c])) back {} { spec := ofCondition ([t].map (·.text)) } :=
      .noexcept hw ho (balanced_singleton ht rfl rfl) hc
    rwa [List.map_singleton, ht, ofCondition, if_neg (by decide), if_pos rfl] at h
  | @noexceptDependent w o c condition hw ho hcondition hc htrue hfalse =>
    have h : Reads (w :: o :: (condition ++ [c])) back {}
        { spec := ofCondition (condition.map (·.text)) } := .noexcept hw ho hcondition hc
    rwa [ofCondition, if_neg htrue, if_neg hfalse] at h
  | throwNothing hw ho hc => exact .throw hw ho .nil hc
  | @throwSome w o c types hw ho htypes hne hc =>
    have h : Reads (w :: o :: (types ++ [c])) back {}
        { spec := if types.isEmpty then .throwNothing else .throwSome } := .throw hw ho htypes hc
    rwa [List.isEmpty_eq_false_iff.mpr hne] at h

/-- An equals sign looks at the word behind it, which is then passed over. -/
theorem Reads.equals {e w : Token} (he : e.text = "=") (hw : isPlain w = true) :
    Reads [e, w] back s
      { s with
          isDefaulted := s.isDefaulted || w.text == "default"
          isDeleted := s.isDeleted || w.text == "delete" } := by
  have hone : Reads [e] ([w] ++ back) s
      { s with
          isDefaulted := s.isDefaulted || w.text == "default"
          isDeleted := s.isDeleted || w.text == "delete" } :=
    .single (isEnd_of_text he rfl) fun _ _ => step_equals he
  exact hone.append (.plain fun t ht => List.mem_singleton.mp ht ▸ hw)

/-- **A default definition or a deletion is read as it is written.** -/
theorem Defined.reads {isDefaulted isDeleted : Bool} {spec : ExceptionSpec}
    (h : Defined isDefaulted isDeleted part) :
    Reads part back { spec } { spec, isDefaulted, isDeleted } := by
  cases h with
  | elsewhere => exact .nil
  | @default e w he hw =>
    have h : Reads [e, w] back { spec }
        { spec, isDefaulted := w.text == "default", isDeleted := w.text == "delete" } :=
      .equals he (isPlain_of_text hw rfl)
    rwa [hw] at h
  | @delete e w he hw =>
    have h : Reads [e, w] back { spec }
        { spec, isDefaulted := w.text == "default", isDeleted := w.text == "delete" } :=
      .equals he (isPlain_of_text hw rfl)
    rwa [hw] at h

theorem Defined.text_head {isDefaulted isDeleted : Bool}
    (h : Defined isDefaulted isDeleted (t :: part)) : t.text = "=" := by
  cases h with
  | default ht => exact ht
  | delete ht => exact ht

/-! ### Declarators -/

namespace Declarator

/-- What stands behind a specification is no parenthesis. -/
theorem textOf_head? (d : Declarator r) :
    Token.textOf (d.behind ++ (d.definition ++ d.stop :: d.rest)).head? ≠ "(" := by
  cases hbehind : d.behind with
  | cons t behind =>
    have hhead := d.behind_head
    rwa [hbehind] at hhead
  | nil =>
    rw [List.nil_append]
    cases hdefinition : d.definition with
    | nil =>
      intro hstop
      have hend : isEnd d.stop = false := isEnd_of_text hstop rfl
      exact nomatch d.stop_isEnd.symm.trans hend
    | cons e definition =>
      intro hopen
      exact absurd ((hdefinition ▸ d.defined).text_head.symm.trans hopen) (by decide)

/-- What says the specifiers is read in front of the token where the declarator stops. -/
theorem reads (d : Declarator r) : Reads d.specifiers (d.stop :: d.rest) {} r := by
  have hbefore : Reads d.before (d.specification ++ (d.behind ++ d.definition) ++ d.stop :: d.rest)
      {} {} := .plain d.before_plain
  have hwritten : Reads d.specification (d.behind ++ d.definition ++ d.stop :: d.rest) {}
      { spec := r.spec } := by
    refine d.written.reads ?_
    rw [List.append_assoc]
    exact d.textOf_head?
  have hbehind : Reads d.behind (d.definition ++ d.stop :: d.rest) { spec := r.spec }
      { spec := r.spec } := .plain d.behind_plain
  exact hbefore.append (hwritten.append (hbehind.append d.defined.reads))

/-- A row in which a declarator stands, cut in front of what says its specifiers. -/
theorem append_tokens (d : Declarator r) (front : List Token) : front ++ d.tokens =
    (front ++ d.name :: d.opening :: (d.parameters ++ [d.closing])) ++
      (d.specifiers ++ d.stop :: d.rest) := by
  simp [tokens]

end Declarator

/-- **The specifiers of a declarator are read back**, wherever it stands in a row whose parentheses
are linked as they belong together or not at all. -/
theorem read?_declarator (d : Declarator r) (front : List Token)
    (hlinks : WellLinked (front ++ d.tokens)) :
    read? (front ++ d.tokens) (some front.length) = some r := by
  have hopening : Token.textOf (front ++ d.tokens)[front.length + 1]? = "(" := by
    rw [Declarator.tokens, Token.textOf_append_cons_succ]
    exact d.opening_text
  have hclosing : Token.closing? (front ++ d.tokens) (front.length + 1) =
      some (front.length + 2 + d.parameters.length) :=
    (closing?_behind hlinks d.opening_text d.parameters_balanced d.closing_text).1
  simp only [read?, hopening, hclosing, if_true]
  rw [scan?_eq_some_iff]
  rw [d.append_tokens] at hlinks ⊢
  have hscans := d.reads _ hlinks
  have hstop : (front ++ d.name :: d.opening :: (d.parameters ++ [d.closing])).length =
      front.length + 2 + d.parameters.length + 1 := by
    simp only [List.length_append, List.length_cons, List.length_nil]
    omega
  rw [← hstop]
  refine hscans.exists_scan? ?_ d.stop_isEnd
  rw [← List.append_assoc, ← List.length_append]
  exact Token.getElem?_append_cons

/-- `X ( X && ) noexcept ( noexcept ( throw ; ) ) override = default ;` behind one more token, with
links between some of its parentheses. -/
def declaratorSample : Declarator { spec := .noexceptDependent, isDefaulted := true } where
  name := { text := "X" }
  opening := { text := "(", link := some 5 }
  parameters := [{ text := "X" }, { text := "&&" }]
  closing := { text := ")", link := some 2 }
  before := []
  specification := { text := "noexcept" } :: { text := "(", link := some 13 } ::
    ([{ text := "noexcept" }, { text := "(" }, { text := "throw" }, { text := ";" },
      { text := ")" }] ++ [{ text := ")", link := some 7 }])
  behind := [{ text := "override" }]
  definition := [{ text := "=" }, { text := "default" }]
  stop := { text := ";" }
  rest := [{ text := ")" }]
  opening_text := rfl
  parameters_balanced := .other rfl rfl (.other rfl rfl .nil)
  closing_text := rfl
  before_plain := nofun
  written := by
    have hcall : BalancedParentheses [{ text := "(" }, { text := "throw" }, { text := ";" },
        { text := ")" }] :=
      @Token.Balanced.bracket _ _ _ _ [{ text := "throw" }, { text := ";" }] [] rfl rfl
        (.other rfl rfl (.other rfl rfl .nil)) .nil
    exact .noexceptDependent rfl rfl (.other rfl rfl hcall) rfl (by decide) (by decide)
  behind_plain := by decide
  behind_head := by decide
  defined := .default rfl rfl
  stop_isEnd := by decide

/-- The words and the semicolon inside the condition are not taken for specifiers. -/
theorem read?_declarator_sample :
    WellLinked ([{ text := "explicit" }] ++ declaratorSample.tokens) ∧
      read? ([{ text := "explicit" }] ++ declaratorSample.tokens) (some 1) =
        some { spec := .noexceptDependent, isDefaulted := true } := by
  have hlinks : WellLinked ([{ text := "explicit" }] ++ declaratorSample.tokens) := by decide
  exact ⟨hlinks, read?_declarator declaratorSample [{ text := "explicit" }] hlinks⟩

end Specifiers

end GrowthAudit
