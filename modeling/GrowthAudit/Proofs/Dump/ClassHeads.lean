import GrowthAudit.CppType.Verdict
import GrowthAudit.Proofs.Dump.Construction
import GrowthAudit.Proofs.Dump.WrittenRows

/-!
# Class heads

What is read back from the head of a class: behind its name, and perhaps `final`, there may be a
colon with the bases, separated by commas.  Each base is the tokens of a type behind keywords that
say whether it is virtual and who has access to it.

* `WrittenBase`, `WrittenHead`: how a base and the head of a class are written.
* `Configuration.recordWithin_bases`: **the bases of a class head are read back**, one for one.
* `Configuration.bases_qualified_iff`: a class that is defined under a qualified name loses its
  bases.  The token behind the keyword is taken for the name, and the list of bases is only found
  directly behind it.
-/

namespace GrowthAudit

/-! ### How class heads are written -/

namespace ClassHead

/-- A token that is passed on the way from the body back to the keyword. -/
def isPassed (t : Token) : Bool :=
  !t.isOneOf ["class", "struct", "union", ";", "\x7d", "\x7b"]

theorem isPassed_of {t : Token} {words : List String} (ht : t.isOneOf words = true)
    (h : ∀ w ∈ words, ["class", "struct", "union", ";", "\x7d", "\x7b"].contains w = false) :
    isPassed t = true := by
  rw [isPassed, Token.isOneOf_eq_false ht h, Bool.not_false]

end ClassHead

open ClassHead (isPassed isPassed_of)

/-- A base as it is written: keywords in any order and number, and the tokens of a type. -/
structure WrittenBase where
  keywords : List Token
  name : List Token
  keywords_isKeyword : ∀ t ∈ keywords, BaseClause.isKeyword t = true
  name_ne_nil : name ≠ []
  name_head : ∀ t ∈ name.head?, BaseClause.isKeyword t = false
  name_commaless : Token.Commaless name
  name_passed : ∀ t ∈ name, isPassed t = true

def WrittenBase.tokens (b : WrittenBase) : List Token := b.keywords ++ b.name

/-- How a list of bases is written, the colon included. -/
inductive WrittenBases : List WrittenBase → List Token → Prop
  | none : WrittenBases [] []
  | some {bases : List WrittenBase} {colon : Token} {ts : List Token} : colon.text = ":" →
      Token.CommaJoined (bases.map (·.tokens)) ts → WrittenBases bases (colon :: ts)

/-- A class head with the given bases. -/
structure WrittenHead (bases : List WrittenBase) where
  keyword : Token
  name : Token
  specifiers : List Token
  clause : List Token
  keyword_text : keyword.isOneOf ["class", "struct", "union"] = true
  name_passed : isPassed name = true
  specifiers_text : ∀ t ∈ specifiers, t.isOneOf ["final", "alignas"] = true
  clause_written : WrittenBases bases clause

/-- The tokens of a class head, with qualifiers in front of the name. -/
def WrittenHead.tokens {bases : List WrittenBase} (h : WrittenHead bases) (path : List Token) :
    List Token :=
  h.keyword :: (path ++ h.name :: (h.specifiers ++ h.clause))

/-! ### Bases -/

namespace WrittenBase

variable (b : WrittenBase)

/-- The base that is to be read. -/
def clause : BaseClause := ⟨b.keywords.any (·.text == "virtual"), b.name⟩

theorem isVirtual_clause : b.clause.isVirtual = true ↔ ∃ t ∈ b.keywords, t.text = "virtual" := by
  simp [clause]

theorem locationOf_head? :
    Token.locationOf b.name.head? = (b.name.head b.name_ne_nil).location := by
  rw [List.head?_eq_some_head b.name_ne_nil]
  rfl

theorem tokens_ne_nil : b.tokens ≠ [] := List.append_ne_nil_of_right_ne_nil _ b.name_ne_nil

/-- The keywords are no brackets and no commas. -/
theorem commaless_tokens : Token.Commaless b.tokens := by
  obtain ⟨keywords, name, hkeywords, -, -, hname, -⟩ := b
  show Token.Commaless (keywords ++ name)
  induction keywords with
  | nil => exact hname
  | cons t keywords ih =>
    have ht : t.isOneOf ["virtual", "public", "protected", "private"] = true :=
      hkeywords t List.mem_cons_self
    exact .other (Token.isOneOf_eq_false ht (by decide)) (Token.isOneOf_eq_false ht (by decide))
      (Token.text_ne ht (by decide)) (ih fun u hu => hkeywords u (List.mem_cons_of_mem t hu))

theorem passed_tokens {t : Token} (ht : t ∈ b.tokens) : isPassed t = true := by
  rcases List.mem_append.mp ht with hkeyword | hname
  · exact isPassed_of (b.keywords_isKeyword t hkeyword) (by decide)
  · exact b.name_passed t hname

/-- **A base is read as it is written.** -/
theorem ofGroup?_tokens : BaseClause.ofGroup? b.tokens = some b.clause := by
  have hstop : b.name.takeWhile BaseClause.isKeyword = [] ∧
      b.name.dropWhile BaseClause.isKeyword = b.name := by
    obtain ⟨t, rest, hname⟩ := List.exists_cons_of_ne_nil b.name_ne_nil
    have ht := b.name_head t (by rw [hname]; rfl)
    rw [hname]
    exact ⟨List.takeWhile_cons_of_neg (by simp [ht]), List.dropWhile_cons_of_neg (by simp [ht])⟩
  have hdrop : b.tokens.dropWhile BaseClause.isKeyword = b.name := by
    rw [tokens, List.dropWhile_append_of_pos b.keywords_isKeyword, hstop.2]
  have htake : b.tokens.takeWhile BaseClause.isKeyword = b.keywords := by
    rw [tokens, List.takeWhile_append_of_pos b.keywords_isKeyword, hstop.1, List.append_nil]
  have hne : ¬ b.name.isEmpty = true := by
    rw [List.isEmpty_iff]
    exact b.name_ne_nil
  simp only [BaseClause.ofGroup?, hdrop, htake, if_neg hne]
  rfl

end WrittenBase

section

variable {bases : List WrittenBase} {ts : List Token}

/-- The bases between commas are read one for one. -/
theorem BaseClause.ofTokens_of_joined (h : Token.CommaJoined (bases.map (·.tokens)) ts) :
    BaseClause.ofTokens ts = bases.map (·.clause) := by
  have hrows : ∀ row ∈ bases.map (·.tokens), Token.Commaless row ∧ row ≠ [] := by
    intro row hrow
    obtain ⟨b, -, rfl⟩ := List.mem_map.mp hrow
    exact ⟨b.commaless_tokens, b.tokens_ne_nil⟩
  rw [ofTokens, Token.splitCommas_of_joined h (fun row hrow => (hrows row hrow).1)
    (fun row hrow => (hrows row hrow).2), List.filterMap_map]
  have hread : BaseClause.ofGroup? ∘ WrittenBase.tokens = some ∘ WrittenBase.clause :=
    funext WrittenBase.ofGroup?_tokens
  rw [hread, ← List.filterMap_map, List.filterMap_some]

theorem passed_of_joined (h : Token.CommaJoined (bases.map (·.tokens)) ts) :
    ∀ t ∈ ts, isPassed t = true := by
  generalize hrows : bases.map (·.tokens) = rows at h
  have hpassed : ∀ row ∈ rows, ∀ t ∈ row, isPassed t = true := by
    intro row hrow t ht
    rw [← hrows] at hrow
    obtain ⟨b, -, rfl⟩ := List.mem_map.mp hrow
    exact b.passed_tokens ht
  clear hrows
  induction h with
  | single => exact hpassed _ List.mem_cons_self
  | @cons row comma rows ts hcomma _ ih =>
    intro t ht
    rcases List.mem_append.mp ht with ht | ht
    · exact hpassed row List.mem_cons_self t ht
    · rcases List.mem_cons.mp ht with rfl | ht
      · exact isPassed_of (Token.isOneOf_singleton.mpr hcomma) (by decide)
      · exact ih (fun r hr => hpassed r (List.mem_cons_of_mem row hr)) t ht

theorem WrittenBases.passed (h : WrittenBases bases ts) : ∀ t ∈ ts, isPassed t = true := by
  cases h with
  | none => exact List.forall_mem_nil _
  | some hcolon hjoined =>
    have hpassed := isPassed_of (Token.isOneOf_singleton.mpr hcolon) (by decide)
    exact List.forall_mem_cons.mpr ⟨hpassed, passed_of_joined hjoined⟩

end

theorem Token.Qualifying.passed {qualifiers qs : List Token}
    (h : Token.Qualifying qualifiers qs) (hpassed : ∀ q ∈ qualifiers, isPassed q = true) :
    ∀ t ∈ qs, isPassed t = true := by
  induction h with
  | nil => exact List.forall_mem_nil _
  | @cons q colons qualifiers ts hcolons _ ih =>
    obtain ⟨hq, hrest⟩ := List.forall_mem_cons.mp hpassed
    have hcolons := isPassed_of (Token.isOneOf_singleton.mpr hcolons) (by decide)
    exact List.forall_mem_cons.mpr ⟨hq, List.forall_mem_cons.mpr ⟨hcolons, ih hrest⟩⟩

/-! ### Heads -/

namespace ClassHead

variable {front behind back row before : List Token} {keyword name brace : Token}

theorem isPassed_iff {t : Token} : isPassed t = true ↔
    t.isOneOf ["class", "struct", "union"] = false ∧ t.isOneOf [";", "\x7d", "\x7b"] = false := by
  simp [isPassed, Token.isOneOf, and_assoc]

/-- The way back from the body ends at the keyword. -/
theorem keywordPosition?_append (hrow : ∀ t ∈ row, isPassed t = true)
    (hkeyword : keyword.isOneOf ["class", "struct", "union"] = true) :
    keywordPosition? (row ++ keyword :: before) = some before.length := by
  induction row with
  | nil => rw [List.nil_append, keywordPosition?, if_pos hkeyword]
  | cons t row ih =>
    obtain ⟨hnot, hgo⟩ := isPassed_iff.mp (hrow t List.mem_cons_self)
    rw [List.cons_append, keywordPosition?, hnot, hgo, if_neg Bool.false_ne_true,
      if_neg Bool.false_ne_true]
    exact ih fun u hu => hrow u (List.mem_cons_of_mem t hu)

/-- What stands behind a colon, if that comes next after the specifiers. -/
def behindColon (ts : List Token) : List Token :=
  let head := ts.dropWhile (·.isOneOf ["final", "alignas"])
  if Token.textOf head.head? = ":" then head.tail else []

theorem behindColon_specifiers {specifiers ts : List Token}
    (h : ∀ t ∈ specifiers, t.isOneOf ["final", "alignas"] = true) :
    behindColon (specifiers ++ ts) = behindColon ts := by
  simp only [behindColon, List.dropWhile_append_of_pos h]

theorem behindColon_colon {t : Token} {ts : List Token} (ht : t.text = ":") :
    behindColon (t :: ts) = ts := by
  have hstop : ¬ t.isOneOf ["final", "alignas"] = true := by simp [Token.isOneOf, ht]
  simp only [behindColon, List.dropWhile_cons_of_neg hstop, List.head?_cons, List.tail_cons,
    Token.textOf, Option.map_some, Option.getD_some, ht, if_true]

/-- A double colon is no colon. -/
theorem behindColon_colons {t : Token} {ts : List Token} (ht : t.text = "::") :
    behindColon (t :: ts) = [] := by
  have hstop : ¬ t.isOneOf ["final", "alignas"] = true := by simp [Token.isOneOf, ht]
  simp only [behindColon, List.dropWhile_cons_of_neg hstop, List.head?_cons, Token.textOf,
    Option.map_some, Option.getD_some, ht]
  rfl

/-- The bases are looked for behind the token that follows the keyword. -/
theorem bases_ofBody (hkeyword : keyword.isOneOf ["class", "struct", "union"] = true)
    (hpassed : ∀ t ∈ name :: behind, isPassed t = true) {body : Nat}
    (hbody : body = front.length + (keyword :: name :: behind).length) :
    (ofBody (front ++ (keyword :: name :: behind ++ brace :: back)) body).bases =
      behindColon behind := by
  have htake : (front ++ (keyword :: name :: behind ++ brace :: back)).take body =
      front ++ keyword :: name :: behind := by
    rw [hbody, ← List.append_assoc, ← List.length_append, List.take_left]
  have hrow : ∀ t ∈ (name :: behind).reverse, isPassed t = true :=
    fun t ht => hpassed t (List.mem_reverse.mp ht)
  have hposition : keywordPosition?
      ((front ++ (keyword :: name :: behind ++ brace :: back)).take body).reverse =
        some front.length := by
    rw [htake, List.reverse_append, List.reverse_cons, List.append_assoc, List.singleton_append,
      keywordPosition?_append hrow hkeyword, List.length_reverse]
  have hbetween : Token.between (front ++ (keyword :: name :: behind ++ brace :: back))
      (front.length + 1) (some body) = behind := by
    have h := @Token.between_append_cons (front ++ [keyword]) back behind name brace
    have hlength : (front ++ [keyword]).length + 1 + behind.length = body := by
      rw [hbody]
      simp only [List.length_append, List.length_cons, List.length_nil]
      omega
    rwa [hlength, List.length_append, List.length_singleton, List.append_assoc,
      List.singleton_append] at h
  simp only [ofBody, hposition, hbetween, behindColon]

end ClassHead

namespace WrittenHead

variable {bases : List WrittenBase} (h : WrittenHead bases)

/-- Between the name and the body everything is passed on the way back. -/
theorem passed_behind : ∀ t ∈ h.specifiers ++ h.clause, isPassed t = true := by
  have hspecifiers : ∀ t ∈ h.specifiers, isPassed t = true :=
    fun t ht => isPassed_of (h.specifiers_text t ht) (by decide)
  exact List.forall_mem_append.mpr ⟨hspecifiers, h.clause_written.passed⟩

/-- Behind the specifiers the list of bases is found, if there is one. -/
theorem ofTokens_behindColon : BaseClause.ofTokens
    (ClassHead.behindColon (h.specifiers ++ h.clause)) = bases.map (·.clause) := by
  rw [ClassHead.behindColon_specifiers h.specifiers_text]
  obtain ⟨keyword, name, specifiers, clause, -, -, -, hclause⟩ := h
  cases hclause with
  | none => rfl
  | some hcolon hjoined =>
    rw [ClassHead.behindColon_colon hcolon]
    exact BaseClause.ofTokens_of_joined hjoined

end WrittenHead

/-! ### Records -/

/-- What is remembered is handed from one element to the next whatever the elements are called. -/
theorem Memo.traverse_map (f : β → Memo → γ × Memo) (g : α → β) (as : List α) (memo : Memo) :
    Memo.traverse f (as.map g) memo = Memo.traverse (fun a => f (g a)) as memo := by
  induction as generalizing memo with
  | nil => rfl
  | cons a as ih => simp only [List.map_cons, Memo.traverse, ih]

theorem Memo.Thread.length_eq {step : α → Memo → β → Memo → Prop} {as : List α} {bs : List β}
    {memo memo' : Memo} (h : Memo.Thread step as memo bs memo') : bs.length = as.length := by
  induction h with
  | nil => rfl
  | cons _ _ ih => exact congrArg (· + 1) ih

namespace Configuration

variable {c c' : Configuration} {bases : List WrittenBase} {qualifiers qs : List Token}
  {i i' : Nat} {path path' : List ScopeKey} {memo memo' : Memo}

/-- The body of a scope stands behind these tokens. -/
structure HeadedBy (c : Configuration) (i : Nat) (head : List Token) : Prop where
  exists_body : ∃ s front brace back, c.scope? i = some s ∧
    c.tokens = front ++ (head ++ brace :: back) ∧ s.bodyStart = some (front.length + head.length)

/-- A record is to be built now: it is neither remembered nor under way. -/
structure Due (c : Configuration) (i : Nat) (path : List ScopeKey) (memo : Memo) : Prop where
  unfinished : memo.lookup (c.keyOf i) = none
  idle : c.keyOf i ∉ path

/-- What a base that is written becomes, inside the definitions on the path: its type is that of its
tokens, built with what is remembered by then, and it is located where its name begins. -/
structure ReadsBase (c : Configuration) (levels : Nat) (path : List ScopeKey) (b : WrittenBase)
    (memo : Memo) (base : Base CppType) (memo' : Memo) : Prop where
  type : c.typeWithin levels path (c.lookupTokens b.name) memo = (base.type, memo')
  isVirtual : base.isVirtual = true ↔ ∃ t ∈ b.keywords, t.text = "virtual"
  location : base.location = (b.name.head b.name_ne_nil).location

/-- A record that is due is built from its outline: the bases and then the members get their types,
and the record is remembered. -/
theorem recordWithin_of_outline (hdue : c.Due i path memo) {o : Record Resolution}
    (ho : c.outline? i = some o) (levels : Nat) :
    ∃ bases inner fields outer,
      c.recordWithin (levels + 1) path i memo =
          (.complete (.ofOutline o bases fields),
            (c.keyOf i, .complete (.ofOutline o bases fields)) :: outer) ∧
        Memo.traverse
          (fun b m =>
            (b.withType (c.typeWithin levels (c.keyOf i :: path) b.type m).1,
              (c.typeWithin levels (c.keyOf i :: path) b.type m).2)) o.bases memo =
          (bases, inner) ∧
        Memo.traverse
          (fun f m =>
            (f.withType (c.typeWithin levels (c.keyOf i :: path) f.type m).1,
              (c.typeWithin levels (c.keyOf i :: path) f.type m).2)) o.fields inner =
          (fields, outer) := by
  have hidle : ¬ path.contains (c.keyOf i) = true :=
    fun hmet => hdue.idle (List.contains_iff_mem.mp hmet)
  rw [recordWithin, hdue.unfinished, if_neg hidle, ho]
  exact ⟨_, _, _, _, rfl, rfl, rfl⟩

theorem recordWithin_of_due (hdue : c.Due i path memo) {o : Record Resolution}
    (ho : c.outline? i = some o) (levels : Nat) :
    ∃ record memo' inner,
      c.recordWithin (levels + 1) path i memo = (.complete record, memo') ∧
        Memo.traverse
          (fun b m =>
            (b.withType (c.typeWithin levels (c.keyOf i :: path) b.type m).1,
              (c.typeWithin levels (c.keyOf i :: path) b.type m).2)) o.bases memo =
          (record.bases, inner) := by
  obtain ⟨bases, inner, fields, outer, hrecord, hbases, -⟩ := recordWithin_of_outline hdue ho levels
  exact ⟨_, _, inner, hrecord, hbases⟩

/-- The bases in the outline of a scope are those behind its head. -/
theorem outline?_of_headed {keyword name : Token} {behind : List Token}
    (hkeyword : keyword.isOneOf ["class", "struct", "union"] = true)
    (hpassed : ∀ t ∈ name :: behind, isPassed t = true)
    (hi : c.HeadedBy i (keyword :: name :: behind)) :
    ∃ o, c.outline? i = some o ∧
      o.bases = (BaseClause.ofTokens (ClassHead.behindColon behind)).map c.outlineBase := by
  obtain ⟨s, front, brace, back, hs, htokens, hbody⟩ := hi.exists_body
  refine ⟨_, outline?_eq_some_iff.mpr ⟨s, _, hs, hbody, rfl⟩, ?_⟩
  refine congrArg (fun ts => (BaseClause.ofTokens ts).map c.outlineBase) ?_
  rw [htokens]
  exact ClassHead.bases_ofBody hkeyword hpassed rfl

/-- **The bases of a class head are read back.**  When the record behind the head is built it is
complete, and its bases are those that are written, one for one and in their order. -/
theorem recordWithin_bases (h : WrittenHead bases) (hi : c.HeadedBy i (h.tokens []))
    (hdue : c.Due i path memo) (levels : Nat) :
    ∃ record memo' inner,
      c.recordWithin (levels + 1) path i memo = (.complete record, memo') ∧
        Memo.Thread (c.ReadsBase levels (c.keyOf i :: path)) bases memo record.bases inner := by
  obtain ⟨o, ho, hbases⟩ := outline?_of_headed h.keyword_text
    (List.forall_mem_cons.mpr ⟨h.name_passed, h.passed_behind⟩) hi
  obtain ⟨record, memo', inner, hrecord, hrun⟩ := recordWithin_of_due hdue ho levels
  refine ⟨record, memo', inner, hrecord, ?_⟩
  rw [hbases, h.ofTokens_behindColon, List.map_map, Memo.traverse_map] at hrun
  have hfirst : (Memo.traverse _ bases memo).1 = record.bases := congrArg Prod.fst hrun
  have hsecond : (Memo.traverse _ bases memo).2 = inner := congrArg Prod.snd hrun
  rw [← hfirst, ← hsecond]
  exact .of_traverse (fun b m => ⟨rfl, b.isVirtual_clause, b.locationOf_head?⟩) bases memo

/-- `struct B { B(B&&); }; struct A { struct W; };` and then a head with a body.  The scopes are
those of `B`, `A` and `W`. -/
def derivedSample (head : List Token) : Configuration where
  tokens := [
    { text := "struct" }, { text := "B" }, { text := "\x7b" }, { text := "B" }, { text := "(" },
    { text := "B" }, { text := "&&" }, { text := ")" }, { text := ";" }, { text := "\x7d" },
    { text := ";" }, { text := "struct" }, { text := "A" }, { text := "\x7b" },
    { text := "struct" }, { text := "W" }, { text := ";" }, { text := "\x7d" }, { text := ";" }] ++
    (head ++ { text := "\x7b" } :: [{ text := "\x7d" }, { text := ";" }])
  scopes := [
    { kind := .record, className := "B", id := some "1", bodyStart := some 2
      functions := [{ kind := .moveConstructor, nameToken := some 3 }] },
    { kind := .record, className := "A", id := some "2", bodyStart := some 13 },
    { kind := .record, className := "W", id := some "3", bodyStart := some (19 + head.length)
      nestedIn := some 1 }]

theorem headedBy_derivedSample (head : List Token) : (derivedSample head).HeadedBy 2 head :=
  ⟨_, _, _, _, rfl, rfl, rfl⟩

theorem due_derivedSample (head : List Token) : (derivedSample head).Due 2 [] [] :=
  ⟨rfl, List.not_mem_nil⟩

/-- `public virtual P<B, int>` -/
def virtualBase : WrittenBase where
  keywords := [{ text := "public" }, { text := "virtual" }]
  name := [{ text := "P", location := ⟨"a.cpp", 3, 31⟩ }, { text := "<" }, { text := "B" },
    { text := "," }, { text := "int" }, { text := ">" }]
  keywords_isKeyword := by decide
  name_ne_nil := by decide
  name_head := by decide
  name_commaless := by
    have harguments : Token.Nested [{ text := "B" }, { text := "," }, { text := "int" }] :=
      .other rfl rfl (.other rfl rfl (.other rfl rfl .nil))
    have hlist : Token.Commaless
        ({ text := "<" } :: ([{ text := "B" }, { text := "," }, { text := "int" }] ++
          { text := ">" } :: [])) := .bracket rfl rfl harguments .nil
    exact .other rfl rfl (by decide) hlist
  name_passed := by decide

/-- A base of type `B`. -/
def plainBase : WrittenBase where
  keywords := []
  name := [{ text := "B", location := ⟨"a.cpp", 3, 42⟩ }]
  keywords_isKeyword := List.forall_mem_nil _
  name_ne_nil := by decide
  name_head := by decide
  name_commaless := .other rfl rfl (by decide) .nil
  name_passed := by decide

/-- `class W final : public virtual P<B, int>, B` -/
def headSample : WrittenHead [virtualBase, plainBase] where
  keyword := { text := "class" }
  name := { text := "W" }
  specifiers := [{ text := "final" }]
  clause := { text := ":" } :: (virtualBase.tokens ++ { text := "," } :: plainBase.tokens)
  keyword_text := by decide
  name_passed := by decide
  specifiers_text := by decide
  clause_written := .some rfl (.cons rfl .single)

/-- The comma between the template arguments does not separate bases. -/
theorem recordWithin_bases_sample :
    (derivedSample (headSample.tokens [])).HeadedBy 2 (headSample.tokens []) ∧
      (derivedSample (headSample.tokens [])).Due 2 [] [] ∧
      ∃ record memo' inner,
        (derivedSample (headSample.tokens [])).recordWithin 4 [] 2 [] =
          (.complete record, memo') ∧
        Memo.Thread ((derivedSample (headSample.tokens [])).ReadsBase 3 [.named "3"])
          [virtualBase, plainBase] [] record.bases inner ∧
        record.bases.map (fun b => (b.type.name, b.isVirtual, b.location)) =
          [("P<B,int>", true, ⟨"a.cpp", 3, 31⟩), ("B", false, ⟨"a.cpp", 3, 42⟩)] := by
  have hheaded := headedBy_derivedSample (headSample.tokens [])
  have hdue := due_derivedSample (headSample.tokens [])
  obtain ⟨record, memo', inner, hrecord, hbases⟩ := recordWithin_bases headSample hheaded hdue 3
  refine ⟨hheaded, hdue, record, memo', inner, hrecord, hbases, ?_⟩
  have hread : ((derivedSample (headSample.tokens [])).recordWithin 4 [] 2 []).1.definition.map
      (fun r => r.bases.map fun b => (b.type.name, b.isVirtual, b.location)) =
        some [("P<B,int>", true, ⟨"a.cpp", 3, 31⟩), ("B", false, ⟨"a.cpp", 3, 42⟩)] := by
    decide +kernel
  rw [hrecord] at hread
  exact Option.some.inj hread

/-! ### Qualified names -/

/-- A head with a qualified name has no bases in the outline: the token behind the keyword is the
first qualifier, and behind that one stands a double colon. -/
theorem outline?_of_qualified (h : WrittenHead bases) (hpath : Token.Qualifying qualifiers qs)
    (hne : qualifiers ≠ []) (hpassed : ∀ q ∈ qualifiers, isPassed q = true)
    (hi : c.HeadedBy i (h.tokens qs)) : ∃ o, c.outline? i = some o ∧ o.bases = [] := by
  have hinside : ∀ t ∈ qs ++ h.name :: (h.specifiers ++ h.clause), isPassed t = true :=
    List.forall_mem_append.mpr
      ⟨hpath.passed hpassed, List.forall_mem_cons.mpr ⟨h.name_passed, h.passed_behind⟩⟩
  cases hpath with
  | nil => exact absurd rfl hne
  | cons hcolons _ =>
    obtain ⟨o, ho, hbases⟩ := outline?_of_headed h.keyword_text hinside hi
    refine ⟨o, ho, ?_⟩
    rw [hbases, List.append_eq, List.cons_append, ClassHead.behindColon_colons hcolons]
    rfl

/-- **A qualified name costs a class its bases.**  Of the records behind two heads that differ in
the qualifiers in front of the name, the one with qualifiers has no bases, so they have the same
ones exactly if none are written. -/
theorem bases_qualified_iff (h : WrittenHead bases) (hpath : Token.Qualifying qualifiers qs)
    (hne : qualifiers ≠ []) (hpassed : ∀ q ∈ qualifiers, isPassed q = true)
    (hi : c.HeadedBy i (h.tokens [])) (hi' : c'.HeadedBy i' (h.tokens qs))
    (hdue : c.Due i path memo) (hdue' : c'.Due i' path' memo') (levels levels' : Nat) :
    ∃ record record',
      (c.recordWithin (levels + 1) path i memo).1 = .complete record ∧
        (c'.recordWithin (levels' + 1) path' i' memo').1 = .complete record' ∧
        record'.bases = [] ∧
        (record'.bases.map (fun b => (b.type, b.isVirtual)) =
          record.bases.map (fun b => (b.type, b.isVirtual)) ↔ bases = []) := by
  obtain ⟨record, _, _, hrecord, hbases⟩ := recordWithin_bases h hi hdue levels
  obtain ⟨o, ho, hnone⟩ := outline?_of_qualified h hpath hne hpassed hi'
  obtain ⟨record', _, _, hrecord', hrun⟩ := recordWithin_of_due hdue' ho levels'
  have hlost : record'.bases = [] := by
    rw [hnone] at hrun
    exact (congrArg Prod.fst hrun).symm
  refine ⟨record, record', congrArg Prod.fst hrecord, congrArg Prod.fst hrecord', hlost, ?_⟩
  rw [hlost, List.map_nil, eq_comm, List.map_eq_nil_iff, ← List.length_eq_zero_iff,
    hbases.length_eq, List.length_eq_zero_iff]

/-- `A::` -/
def pathSample : List Token := [{ text := "A" }, { text := "::" }]

theorem bases_qualified_iff_sample :
    Token.Qualifying [{ text := "A" }] pathSample ∧
      (derivedSample (headSample.tokens [])).HeadedBy 2 (headSample.tokens []) ∧
      (derivedSample (headSample.tokens pathSample)).HeadedBy 2 (headSample.tokens pathSample) ∧
      ∃ record record',
        ((derivedSample (headSample.tokens [])).recordType 2 []).1 = .complete record ∧
        ((derivedSample (headSample.tokens pathSample)).recordType 2 []).1 = .complete record' ∧
        record'.bases = [] ∧
        record'.bases.map (fun b => (b.type, b.isVirtual)) ≠
          record.bases.map (fun b => (b.type, b.isVirtual)) := by
  have hpath : Token.Qualifying [{ text := "A" }] pathSample := .cons rfl .nil
  have hplain := headedBy_derivedSample (headSample.tokens [])
  have hqualified := headedBy_derivedSample (headSample.tokens pathSample)
  obtain ⟨record, record', hrecord, hrecord', hlost, hiff⟩ :=
    bases_qualified_iff headSample hpath (List.cons_ne_nil _ _) (by decide) hplain hqualified
      (due_derivedSample _) (due_derivedSample _) 3 3
  refine ⟨hpath, hplain, hqualified, record, record', hrecord, hrecord', hlost, ?_⟩
  intro hsame
  exact List.cons_ne_nil _ _ (hiff.mp hsame)

/-- The class `A::W` degrades through its base `B` when it is defined as `W`, and does not when it
is defined as `A::W`, because the base is lost. -/
theorem qualified_head_loses_bases :
    ((derivedSample (headSample.tokens [])).recordType 2 []).1.definition.map
        (fun r => r.bases.map fun b => (b.type.name, b.isVirtual)) =
          some [("P<B,int>", true), ("B", false)] ∧
      ((derivedSample (headSample.tokens [])).recordType 2 []).1.degrades = true ∧
      ((derivedSample (headSample.tokens pathSample)).recordType 2 []).1.definition.map
        (·.bases.length) = some 0 ∧
      ((derivedSample (headSample.tokens pathSample)).recordType 2 []).1.degrades = false := by
  decide +kernel

end Configuration

end GrowthAudit
