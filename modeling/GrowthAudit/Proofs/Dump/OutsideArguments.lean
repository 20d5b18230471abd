import GrowthAudit.Proofs.Dump.Components
import GrowthAudit.Proofs.Dump.Construction
import GrowthAudit.Proofs.Dump.TemplateArguments
import GrowthAudit.Proofs.Dump.WrittenRows

/-!
# What is outside of template arguments

The template arguments of a member should not decide what kind of type it has, which definition it
is given and whether it is constant.  Of what reads the tokens of a type some look at those outside
of argument lists only, and the others at the spelled name as a whole: records are searched under
what is in front of the first bracket, enumerations under the whole name and its last component.

* `Token.SameOutside`: two rows that differ in what is inside their argument lists only.
* `Text.SameEnds`: what this means for the names that they spell.
* `Resolution.SameMeaning`: the same record, or types of one kind without definitions.
* `Configuration.PlainNames`: records, enumerations and namespaces have names without brackets.
* `Configuration.type_and_const_of_sameOutside`: **then template arguments decide nothing.**
-/

namespace GrowthAudit

/-! ### Names with the same ends -/

namespace Text

/-- Two texts are the same and have no brackets; or they are the same in front of their first
opening bracket and behind their last closing one, and anything may be between the two. -/
inductive SameEnds : List Char → List Char → Prop
  | same {cs : List Char} : '<' ∉ cs → '>' ∉ cs → SameEnds cs cs
  | arguments {front mid mid' back : List Char} : '<' ∉ front → '>' ∉ back →
      SameEnds (front ++ '<' :: (mid ++ '>' :: back)) (front ++ '<' :: (mid' ++ '>' :: back))

variable {cs cs' front mid mid' back after : List Char} {name name' : String}

theorem SameEnds.symm (h : SameEnds cs cs') : SameEnds cs' cs := by
  cases h with
  | same hopen hclose => exact .same hopen hclose
  | arguments hopen hclose => exact .arguments hopen hclose

/-- A text without brackets may be put in front. -/
theorem SameEnds.append (hopen : '<' ∉ front) (hclose : '>' ∉ front) (h : SameEnds cs cs') :
    SameEnds (front ++ cs) (front ++ cs') := by
  cases h with
  | same hopen' hclose' =>
    exact .same (List.not_mem_append hopen hopen') (List.not_mem_append hclose hclose')
  | arguments hopen' hclose' =>
    rw [← List.append_assoc, ← List.append_assoc]
    exact .arguments (List.not_mem_append hopen hopen') hclose'

/-- Different arguments may be put in front. -/
theorem SameEnds.cons_arguments (h : SameEnds cs cs') :
    SameEnds ('<' :: (mid ++ '>' :: cs)) ('<' :: (mid' ++ '>' :: cs')) := by
  cases h with
  | same hopen hclose => exact @arguments [] mid mid' _ List.not_mem_nil hclose
  | @arguments front inner inner' back hopen hclose =>
    have hall := @arguments [] (mid ++ '>' :: (front ++ '<' :: inner))
      (mid' ++ '>' :: (front ++ '<' :: inner')) back List.not_mem_nil hclose
    simpa only [List.nil_append, List.append_assoc, List.cons_append] using hall

/-- Colons in front may be dropped. -/
theorem SameEnds.dropColons (h : SameEnds cs cs') :
    SameEnds (cs.dropWhile (· = ':')) (cs'.dropWhile (· = ':')) := by
  have hdropped : ∀ {x : Char} {l : List Char}, x ∉ l → x ∉ l.dropWhile (· = ':') :=
    fun hx hmem => hx ((List.dropWhile_suffix _).mem hmem)
  cases h with
  | same hopen hclose => exact .same (hdropped hopen) (hdropped hclose)
  | @arguments front mid mid' back hopen hclose =>
    have hdrop : ∀ rest, (front ++ '<' :: rest).dropWhile (· = ':') =
        front.dropWhile (· = ':') ++ '<' :: rest := by
      intro rest
      rw [List.dropWhile_append]
      split
      · next hempty =>
        rw [List.isEmpty_iff.mp hempty]
        rfl
      · rfl
    rw [hdrop, hdrop]
    exact .arguments (hdropped hopen) hclose

/-- In front of the first bracket both are the same. -/
theorem SameEnds.takeWhile_eq (h : SameEnds cs cs') :
    cs.takeWhile (· ≠ '<') = cs'.takeWhile (· ≠ '<') := by
  cases h with
  | same => rfl
  | @arguments front mid mid' back hopen hclose =>
    have htake : ∀ rest, (front ++ '<' :: rest).takeWhile (· ≠ '<') = front := by
      intro rest
      rw [List.takeWhile_append_of_pos, List.takeWhile_cons_of_neg (by simp), List.append_nil]
      intro x hx
      exact decide_eq_true fun heq => hopen (heq ▸ hx)
    rw [htake, htake]

theorem lookupKey_eq_of_sameEnds (h : SameEnds name.toList name'.toList) :
    lookupKey name = lookupKey name' := by
  rw [lookupKey, lookupKey, untemplated, untemplated, h.takeWhile_eq]

/-! ### The last component -/

theorem afterLastColons?_append (h : afterLastColons? back = some after) (front : List Char) :
    afterLastColons? (front ++ back) = some after := by
  induction front with
  | nil => exact h
  | cons c front ih => rw [List.cons_append, afterLastColons?, ih]

/-- What follows the last double colon does so behind the first character, or directly. -/
theorem afterLastColons?_cons {c : Char} {rest : List Char}
    (h : afterLastColons? (c :: rest) = some after) :
    afterLastColons? rest = some after ∨
      afterLastColons? rest = none ∧ c = ':' ∧ rest = ':' :: after := by
  rw [afterLastColons?] at h
  cases hrest : afterLastColons? rest with
  | some after' =>
    rw [hrest] at h
    exact .inl h
  | none =>
    rw [hrest] at h
    simp only [Option.ite_none_right_eq_some, Option.some.injEq] at h
    obtain ⟨⟨hc, hhead⟩, rfl⟩ := h
    exact .inr ⟨rfl, hc, List.eq_cons_of_mem_head? hhead⟩

/-- Where no double colon is behind a bracket, the bracket is behind the last one. -/
theorem mem_of_afterLastColons? (hback : afterLastColons? back = none)
    (h : afterLastColons? (front ++ '>' :: back) = some after) : '>' ∈ after := by
  induction front with
  | nil =>
    rcases afterLastColons?_cons h with hrest | ⟨-, hcolon, -⟩
    · rw [hback] at hrest
      cases hrest
    · exact absurd hcolon (by decide)
  | cons c front ih =>
    rcases afterLastColons?_cons h with hrest | ⟨-, -, hrest⟩
    · exact ih hrest
    · cases front with
      | nil => exact absurd (List.cons.inj hrest).1 (by decide)
      | cons d front =>
        rw [← (List.cons.inj hrest).2]
        exact List.mem_append_right front List.mem_cons_self

theorem SameEnds.eq_of_bracketless (h : SameEnds name.toList name'.toList)
    (hname : Bracketless name) : name = name' := by
  generalize hcs : name.toList = cs at h
  generalize hcs' : name'.toList = cs' at h
  cases h with
  | same => exact String.toList_inj.mp (hcs.trans hcs'.symm)
  | arguments =>
    rw [Bracketless, hcs] at hname
    exact absurd (List.mem_append_right _ List.mem_cons_self) hname.1

/-- A last component without brackets is behind the arguments, and the same in both texts. -/
theorem lastComponent_eq_of_sameEnds (h : SameEnds name.toList name'.toList)
    (hlast : Bracketless (lastComponent name)) : lastComponent name = lastComponent name' := by
  generalize hcs : name.toList = cs at h
  generalize hcs' : name'.toList = cs' at h
  cases h with
  | same =>
    rw [← String.toList_inj.mp (hcs.trans hcs'.symm)]
  | @arguments front mid mid' back hopen hclose =>
    have hsplit : ∀ m : List Char, front ++ '<' :: (m ++ '>' :: back) =
        (front ++ '<' :: m) ++ '>' :: back := by simp
    rw [lastComponent, hcs] at hlast
    cases hback : afterLastColons? back with
    | some after =>
      have hafter : afterLastColons? ('>' :: back) = some after :=
        afterLastColons?_append hback ['>']
      rw [lastComponent, lastComponent, hcs, hcs', hsplit, hsplit,
        afterLastColons?_append hafter, afterLastColons?_append hafter]
      rfl
    | none =>
      -- the last component would have a bracket
      refine absurd hlast.2 (not_not_intro ?_)
      cases hall : afterLastColons? (front ++ '<' :: (mid ++ '>' :: back)) with
      | none =>
        rw [Option.map_none, Option.getD_none, hcs]
        simp
      | some after =>
        rw [Option.map_some, Option.getD_some, String.toList_ofList]
        rw [hsplit] at hall
        exact mem_of_afterLastColons? hback hall

end Text

/-! ### Rows of tokens that are the same outside of their argument lists -/

namespace Token

/-- Angle brackets are nested in a row. -/
abbrev BalancedAngles : List Token → Prop := Balanced ["<"] [">"]

/-- Two tokens have the same text and point to the same scope. -/
structure Alike (t t' : Token) : Prop where
  text : t.text = t'.text
  scope : t.scope = t'.scope

/-- Two rows have the same tokens outside of argument lists, and such lists at the same places. -/
inductive SameOutside : List Token → List Token → Prop
  | nil : SameOutside [] []
  | other {t t' : Token} {ts ts' : List Token} : Alike t t' → Text.Bracketless t.text →
      SameOutside ts ts' → SameOutside (t :: ts) (t' :: ts')
  | arguments {o o' c c' : Token} {inner inner' ts ts' : List Token} :
      o.text = "<" → o'.text = "<" → c.text = ">" → c'.text = ">" →
      BalancedAngles inner → BalancedAngles inner' → SameOutside ts ts' →
      SameOutside (o :: (inner ++ c :: ts)) (o' :: (inner' ++ c' :: ts'))

variable {words opening closing : List String} {t t' o c : Token} {inner ts ts' : List Token}
  {depth : Nat}

theorem Alike.isOneOf (h : Alike t t') (words : List String) :
    t.isOneOf words = t'.isOneOf words := by
  rw [Token.isOneOf, Token.isOneOf, h.text]

theorem text_ne_of_bracketless (ht : Text.Bracketless t.text) : t.text ≠ "<" ∧ t.text ≠ ">" := by
  constructor
  · intro h
    exact ht.1 (h ▸ by decide)
  · intro h
    exact ht.2 (h ▸ by decide)

/-! #### Words that are left out -/

theorem filter_cons_of_isOneOf (ht : t.isOneOf words = false) :
    (t :: ts).filter (!·.isOneOf words) = t :: ts.filter (!·.isOneOf words) :=
  List.filter_cons_of_pos (congrArg (!·) ht)

/-- Brackets are nested in a row as they were when words that are no brackets are left out. -/
theorem Balanced.filter (hopening : ∀ w ∈ opening, words.contains w = false)
    (hclosing : ∀ w ∈ closing, words.contains w = false) (h : Balanced opening closing ts) :
    Balanced opening closing (ts.filter (!·.isOneOf words)) := by
  induction h with
  | nil => exact .nil
  | @other t ts hopen hclose _ ih =>
    rw [List.filter_cons]
    split
    · exact .other hopen hclose ih
    · exact ih
  | bracket ho hc _ _ ihinner ih =>
    rw [filter_cons_of_isOneOf (isOneOf_eq_false ho hopening), List.filter_append,
      filter_cons_of_isOneOf (isOneOf_eq_false hc hclosing)]
    exact .bracket ho hc ihinner ih

/-- Two rows stay the same outside of their argument lists when words that are no brackets are left
out. -/
theorem SameOutside.filter (hopening : words.contains "<" = false)
    (hclosing : words.contains ">" = false) (h : SameOutside ts ts') :
    SameOutside (ts.filter (!·.isOneOf words)) (ts'.filter (!·.isOneOf words)) := by
  induction h with
  | nil => exact .nil
  | other ht hbracketless _ ih =>
    rw [List.filter_cons, List.filter_cons, ht.isOneOf]
    split
    · exact .other ht hbracketless ih
    · exact ih
  | arguments ho ho' hc hc' hinner hinner' _ ih =>
    have hkeep : ∀ {w : String} {t : Token}, words.contains w = false → t.text = w →
        t.isOneOf words = false := by
      rintro _ t hw rfl
      exact hw
    have hfilter : ∀ {row : List Token}, BalancedAngles row →
        BalancedAngles (row.filter (!·.isOneOf words)) :=
      Balanced.filter (List.forall_mem_singleton.mpr hopening)
        (List.forall_mem_singleton.mpr hclosing)
    rw [filter_cons_of_isOneOf (hkeep hopening ho), filter_cons_of_isOneOf (hkeep hopening ho'),
      List.filter_append, List.filter_append, filter_cons_of_isOneOf (hkeep hclosing hc),
      filter_cons_of_isOneOf (hkeep hclosing hc')]
    exact .arguments ho ho' hc hc' (hfilter hinner) (hfilter hinner') ih

/-! #### What is outside -/

theorem topLevelAt_other (ht : Text.Bracketless t.text) :
    topLevelAt 0 (t :: ts) = t :: topLevelAt 0 ts := by
  obtain ⟨hopen, hclose⟩ := text_ne_of_bracketless ht
  rw [topLevelAt, if_neg hopen, if_neg (fun h => hclose h.1), if_pos rfl]

theorem topLevelAt_opening (ho : o.text = "<") :
    topLevelAt depth (o :: ts) = topLevelAt (depth + 1) ts := by
  rw [topLevelAt, if_pos ho]

theorem topLevelAt_closing (hc : c.text = ">") :
    topLevelAt (depth + 1) (c :: ts) = topLevelAt depth ts := by
  have hne : c.text ≠ "<" := by
    rw [hc]
    decide
  rw [topLevelAt, if_neg hne, if_pos ⟨hc, Nat.succ_ne_zero depth⟩, Nat.add_sub_cancel]

/-- Inside brackets a row in which these are nested has nothing that is outside. -/
theorem BalancedAngles.topLevelAt_append (h : BalancedAngles inner) :
    topLevelAt (depth + 1) (inner ++ ts) = topLevelAt (depth + 1) ts := by
  induction h generalizing depth ts with
  | nil => rfl
  | other hopen hclose _ ih =>
    rw [List.cons_append, topLevelAt, if_neg (isOneOf_singleton_eq_false.mp hopen),
      if_neg (fun h => isOneOf_singleton_eq_false.mp hclose h.1), if_neg (Nat.succ_ne_zero depth),
      ih]
  | bracket ho hc _ _ ihinner ih =>
    rw [List.cons_append, List.append_assoc, List.cons_append,
      topLevelAt_opening (isOneOf_singleton.mp ho), ihinner,
      topLevelAt_closing (isOneOf_singleton.mp hc), ih]

/-- What is outside of the argument lists is the same. -/
theorem SameOutside.topLevel (h : SameOutside ts ts') :
    List.Forall₂ Alike (topLevel ts) (topLevel ts') := by
  rw [Token.topLevel, Token.topLevel]
  induction h with
  | nil => exact .nil
  | @other t t' ts ts' ht hbracketless _ ih =>
    have hbracketless' : Text.Bracketless t'.text := ht.text ▸ hbracketless
    rw [topLevelAt_other hbracketless, topLevelAt_other hbracketless']
    exact .cons ht ih
  | arguments ho ho' hc hc' hinner hinner' _ ih =>
    rw [topLevelAt_opening ho, topLevelAt_opening ho', hinner.topLevelAt_append,
      hinner'.topLevelAt_append, topLevelAt_closing hc, topLevelAt_closing hc']
    exact ih

theorem SameOutside.map_text (h : SameOutside ts ts') :
    (Token.topLevel ts).map (·.text) = (Token.topLevel ts').map (·.text) := by
  rw [← List.forall₂_eq_eq_eq, List.forall₂_map_left_iff, List.forall₂_map_right_iff]
  exact h.topLevel.imp fun _ _ ht => ht.text

theorem SameOutside.map_scope (h : SameOutside ts ts') :
    (Token.topLevel ts).map (·.scope) = (Token.topLevel ts').map (·.scope) := by
  rw [← List.forall₂_eq_eq_eq, List.forall₂_map_left_iff, List.forall₂_map_right_iff]
  exact h.topLevel.imp fun _ _ ht => ht.scope

/-- Pointers and references are told by what is outside. -/
theorem SameOutside.any_isIndirection (h : SameOutside ts ts') :
    (Token.topLevel ts).any (·.isIndirection) = (Token.topLevel ts').any (·.isIndirection) := by
  have hany : ∀ row : List Token,
      row.any (·.isIndirection) = (row.map (·.text)).any ["*", "&", "&&"].contains := by
    intro row
    rw [List.any_map]
    rfl
  rw [hany, hany, h.map_text]

/-- The scope of a type is that of a token outside. -/
theorem SameOutside.findSome?_scope (h : SameOutside ts ts') :
    (Token.topLevel ts).reverse.findSome? (·.scope) =
      (Token.topLevel ts').reverse.findSome? (·.scope) := by
  have hfind : ∀ row : List Token,
      row.reverse.findSome? (·.scope) = (row.map (·.scope)).reverse.findSome? id := by
    intro row
    rw [← List.map_reverse, List.findSome?_map]
    rfl
  rw [hfind, hfind, h.map_scope]

/-! #### What is spelled -/

theorem SameOutside.isEmpty (h : SameOutside ts ts') : ts.isEmpty = ts'.isEmpty := by
  cases h <;> rfl

theorem SameOutside.all_isOneOf (hopening : words.contains "<" = false) (h : SameOutside ts ts') :
    ts.all (·.isOneOf words) = ts'.all (·.isOneOf words) := by
  induction h with
  | nil => rfl
  | other ht _ _ ih => rw [List.all_cons, List.all_cons, ht.isOneOf, ih]
  | arguments ho ho' _ _ _ _ _ _ =>
    rw [List.all_cons, List.all_cons, isOneOf, isOneOf, ho, ho', hopening, Bool.false_and,
      Bool.false_and]

/-- A row with argument lists spells no builtin type, whatever the arguments are. -/
theorem SameOutside.spellBuiltin (h : SameOutside ts ts') :
    Token.spellBuiltin ts = Token.spellBuiltin ts' := by
  have hopening : ["::", "std"].contains "<" = false := by decide
  have hclosing : ["::", "std"].contains ">" = false := by decide
  have hnames := h.filter hopening hclosing
  have hall := hnames.all_isOneOf (by decide : builtinNames.contains "<" = false)
  rw [Token.spellBuiltin, Token.spellBuiltin, hnames.isEmpty, hall]

theorem toList_spelling (ts : List Token) :
    (Token.spelling ts).toList = ts.flatMap (·.text.toList) := by
  rw [Token.spelling, String.toList_join, List.flatMap_map]

/-- The spelled names have the same ends. -/
theorem SameOutside.spelling (h : SameOutside ts ts') :
    Text.SameEnds (Token.spelling ts).toList (Token.spelling ts').toList := by
  rw [toList_spelling, toList_spelling]
  induction h with
  | nil => exact .same List.not_mem_nil List.not_mem_nil
  | other ht hbracketless _ ih =>
    rw [List.flatMap_cons, List.flatMap_cons, ← ht.text]
    exact ih.append hbracketless.1 hbracketless.2
  | arguments ho ho' hc hc' _ _ _ ih =>
    have hopen : "<".toList = ['<'] := rfl
    have hclose : ">".toList = ['>'] := rfl
    rw [List.flatMap_cons, List.flatMap_cons, List.flatMap_append, List.flatMap_append,
      List.flatMap_cons, List.flatMap_cons, ho, ho', hc, hc', hopen, hclose]
    exact ih.cons_arguments

end Token

/-! ### What types of such rows have in common -/

namespace Resolution

/-- The same record, or two types of one kind that have no definition. -/
inductive SameMeaning : Resolution → Resolution → Prop
  | record (i : Nat) : SameMeaning (.record i) (.record i)
  | known {t t' : CppType} : t.kind = t'.kind → t.definition = none → t'.definition = none →
      SameMeaning (.known t) (.known t')

end Resolution

namespace Configuration

open Text

variable {c : Configuration} {name name' : String} {ts ts' : List Token}

/-- Records, enumerations and namespaces have names without angle brackets. -/
structure PlainNames (c : Configuration) : Prop where
  record : ∀ s ∈ c.scopes, s.kind = .record → Bracketless s.className
  enumeration : ∀ s ∈ c.scopes, s.kind = .enumeration → Bracketless s.className
  nameSpace : ∀ s ∈ c.scopes, s.kind = .nameSpace → Bracketless s.className

namespace PlainNames

variable (hc : c.PlainNames)

include hc

/-- The names that the qualified name of an enumeration is made of have no brackets. -/
theorem bracketless_of_mem_path {e : Nat} (he : e ∈ c.named .enumeration) {part : String}
    (hpart : part ∈ c.path e) : Bracketless part := by
  obtain ⟨s, hs, hkind, rfl⟩ := exists_scope_of_mem_path hpart
  rcases hkind with hself | hrecord | hnameSpace
  · obtain ⟨s', hs', hkind, -⟩ := mem_named.mp he
    cases hself.symm.trans hs'
    exact hc.enumeration s hs hkind
  · exact hc.record s hs hrecord
  · exact hc.nameSpace s hs hnameSpace

/-- An enumeration has no name with brackets, neither alone nor qualified. -/
theorem bracketless (h : c.NamesEnumeration name) : Bracketless name := by
  obtain ⟨e, he, rfl | rfl⟩ := h
  · obtain ⟨s, hs, hkind, -⟩ := mem_named.mp he
    rw [className, hs]
    exact hc.enumeration s (List.mem_of_getElem? hs) hkind
  · have hparts : ∀ part ∈ (c.path e).map String.toList, '<' ∉ part ∧ '>' ∉ part :=
      List.forall_mem_map.mpr fun _ hpart => hc.bracketless_of_mem_path he hpart
    rw [Bracketless, toList_qualifiedName]
    exact ⟨notMem_intercalate (by decide) fun part hpart => (hparts part hpart).1,
      notMem_intercalate (by decide) fun part hpart => (hparts part hpart).2⟩

/-- A name of an enumeration names one by what is outside of brackets. -/
theorem isEnumeration (h : SameEnds name.toList name'.toList)
    (hname : c.isEnumeration name = true) : c.isEnumeration name' = true := by
  have hkeys : SameEnds (unrooted name).toList (unrooted name').toList := by
    rw [unrooted, unrooted, String.toList_ofList, String.toList_ofList]
    exact h.dropColons
  rcases isEnumeration_iff.mp hname with hnames | hnames
  · rw [hkeys.eq_of_bracketless (hc.bracketless hnames)] at hnames
    exact isEnumeration_iff.mpr (.inl hnames)
  · rw [lastComponent_eq_of_sameEnds hkeys (hc.bracketless hnames)] at hnames
    exact isEnumeration_iff.mpr (.inr hnames)

/-- Names with the same ends mean the same. -/
theorem lookupName (h : SameEnds name.toList name'.toList) :
    Resolution.SameMeaning (c.lookupName name) (c.lookupName name') := by
  have henum : c.isEnumeration name = c.isEnumeration name' :=
    Bool.eq_iff_iff.mpr ⟨hc.isEnumeration h, hc.isEnumeration h.symm⟩
  have hrecord : c.findRecord? name = c.findRecord? name' :=
    c.findRecord?_congr (lookupKey_eq_of_sameEnds h)
  rw [Configuration.lookupName, Configuration.lookupName, henum, hrecord]
  split
  · exact .known rfl rfl rfl
  · split
    · exact .record _
    · exact .known rfl rfl rfl

theorem lookupScope (h : SameEnds name.toList name'.toList) (i : Nat) :
    Resolution.SameMeaning (c.lookupScope i name) (c.lookupScope i name') := by
  rw [Configuration.lookupScope, Configuration.lookupScope]
  split
  · exact .known rfl rfl rfl
  · exact .record i
  · exact hc.lookupName h

/-- Rows that are the same outside of their argument lists mean the same. -/
theorem lookupTokens (h : Token.SameOutside ts ts') :
    Resolution.SameMeaning (c.lookupTokens ts) (c.lookupTokens ts') := by
  have hunqualified :
      Token.SameOutside (ts.filter (!·.isQualifier)) (ts'.filter (!·.isQualifier)) :=
    h.filter (by decide) (by decide)
  have hname := (hunqualified.filter (by decide : ["*", "&", "&&"].contains "<" = false)
    (by decide)).spelling
  rw [Configuration.lookupTokens, Configuration.lookupTokens]
  simp only [hunqualified.any_isIndirection, hunqualified.spellBuiltin,
    hunqualified.findSome?_scope]
  split
  · exact .known rfl rfl rfl
  · split
    · exact .known rfl rfl rfl
    · split
      · exact hc.lookupScope hname _
      · exact hc.lookupName hname

end PlainNames

/-- Resolutions that mean the same give types of one kind with one definition, and leave the same
behind. -/
theorem typeWithin_of_sameMeaning {r r' : Resolution} (h : r.SameMeaning r') (levels : Nat)
    (path : List ScopeKey) (memo : Memo) :
    (c.typeWithin levels path r memo).1.kind = (c.typeWithin levels path r' memo).1.kind ∧
      (c.typeWithin levels path r memo).1.definition =
        (c.typeWithin levels path r' memo).1.definition ∧
      (c.typeWithin levels path r memo).2 = (c.typeWithin levels path r' memo).2 := by
  cases h with
  | record i => exact ⟨rfl, rfl, rfl⟩
  | known hkind hnone hnone' => exact ⟨hkind, hnone.trans hnone'.symm, rfl⟩

/-- Whether a member is constant is told by what is outside of argument lists. -/
theorem isConstMember_of_sameOutside {c' : Configuration} {v v' : Variable}
    (h : Token.SameOutside (c.typeTokens v) (c'.typeTokens v')) :
    c.isConstMember v = c'.isConstMember v' := by
  have hconst : ∀ row : List Token,
      row.any (·.text == "const") = (row.map (·.text)).any (· == "const") := by
    intro row
    rw [List.any_map]
    rfl
  have hlast : ∀ row : List Token,
      Token.textOf row.getLast? = (row.map (·.text)).getLast?.getD "" := by
    intro row
    rw [List.getLast?_map]
    rfl
  rw [isConstMember, isConstMember]
  simp only [h.any_isIndirection, hconst, hlast, h.map_text]

/-- **Template arguments do not decide the type of a member.**  Records, enumerations and namespaces
may have any names without angle brackets.  For rows that are the same outside of their argument
lists: the types that are built from them have the same kind and the same definition, wherever they
are built and whatever is remembered; and members that are declared with them are constant
together. -/
theorem type_and_const_of_sameOutside (hc : c.PlainNames) (h : Token.SameOutside ts ts') :
    (∀ (levels : Nat) (path : List ScopeKey) (memo : Memo),
      (c.typeWithin levels path (c.lookupTokens ts) memo).1.kind =
          (c.typeWithin levels path (c.lookupTokens ts') memo).1.kind ∧
        (c.typeWithin levels path (c.lookupTokens ts) memo).1.definition =
          (c.typeWithin levels path (c.lookupTokens ts') memo).1.definition ∧
        (c.typeWithin levels path (c.lookupTokens ts) memo).2 =
          (c.typeWithin levels path (c.lookupTokens ts') memo).2) ∧
      ∀ (d d' : Configuration) (v v' : Variable), d.typeTokens v = ts → d'.typeTokens v' = ts' →
        (d.outlineField v).isConst = (d'.outlineField v').isConst := by
  constructor
  · exact typeWithin_of_sameMeaning (hc.lookupTokens h)
  · rintro d d' v v' rfl rfl
    exact isConstMember_of_sameOutside h

/-- `const Box<int*>` -/
def pointersSample : List Token :=
  [{ text := "const" }, { text := "Box" }, { text := "<" }, { text := "int" }, { text := "*" },
    { text := ">" }]

/-- `const Box<V<Box>>` -/
def boxesSample : List Token :=
  [{ text := "const" }, { text := "Box" }, { text := "<" }, { text := "V" }, { text := "<" },
    { text := "Box" }, { text := ">" }, { text := ">" }]

/-- `struct Box { Box(Box&&); }; const Box<int*> a; const Box<V<Box>> b;`, and an enumeration
`Color` in a namespace `N`. -/
def boxSample : Configuration where
  tokens := [
    { text := "struct" }, { text := "Box" }, { text := "\x7b" }, { text := "Box" }, { text := "(" },
    { text := "Box" }, { text := "&&" }, { text := ")" }, { text := ";" }, { text := "\x7d" },
    { text := ";" }] ++ pointersSample ++ [{ text := "a" }, { text := ";" }] ++ boxesSample ++
    [{ text := "b" }, { text := ";" }]
  scopes := [
    { kind := .record, className := "Box", id := some "1", bodyStart := some 2
      functions := [{ kind := .moveConstructor, nameToken := some 3 }] },
    { kind := .enumeration, className := "Color", id := some "2", nestedIn := some 2 },
    { kind := .nameSpace, className := "N", id := some "3" }]

theorem sameOutside_boxes : Token.SameOutside pointersSample boxesSample := by
  have hbox : Bracketless "Box" := by decide
  have hconst : Bracketless "const" := by decide
  have hinner : Token.BalancedAngles [{ text := "int" }, { text := "*" }] :=
    .other rfl rfl (.other rfl rfl .nil)
  have hinner' : Token.BalancedAngles ({ text := "V" } :: { text := "<" } ::
      ([{ text := "Box" }] ++ { text := ">" } :: [])) :=
    .other rfl rfl (.bracket rfl rfl (.other rfl rfl .nil) .nil)
  exact .other ⟨rfl, rfl⟩ hconst (.other ⟨rfl, rfl⟩ hbox
    (.arguments rfl rfl rfl rfl hinner hinner' .nil))

/-- Neither the pointer nor the inner list is seen: both members are constant records. -/
theorem type_and_const_of_sameOutside_sample :
    boxSample.PlainNames ∧ Token.SameOutside pointersSample boxesSample ∧
      (boxSample.typeOf (boxSample.lookupTokens boxesSample) []).1.kind = .record ∧
      (boxSample.typeOf (boxSample.lookupTokens boxesSample) []).1.definition.map (·.name) =
        some "Box" ∧
      (boxSample.outlineField
        { nameToken := some 27, typeStart := some 19, typeEnd := some 26 }).isConst = true := by
  have hplain : boxSample.PlainNames := by constructor <;> decide
  have hkind : (boxSample.typeOf (boxSample.lookupTokens pointersSample) []).1.kind = .record := by
    decide +kernel
  have hdefinition : (boxSample.typeOf (boxSample.lookupTokens pointersSample)
      []).1.definition.map (·.name) = some "Box" := by decide +kernel
  obtain ⟨htype, hconst⟩ := type_and_const_of_sameOutside hplain sameOutside_boxes
  have hsame := htype (boxSample.scopes.length + 1) [] []
  rw [typeWithin_nil, typeWithin_nil] at hsame
  have hboth := hconst boxSample boxSample
    { nameToken := some 17, typeStart := some 11, typeEnd := some 16 }
    { nameToken := some 27, typeStart := some 19, typeEnd := some 26 } (by decide) (by decide)
  refine ⟨hplain, sameOutside_boxes, hsame.1 ▸ hkind, hsame.2.1 ▸ hdefinition, ?_⟩
  rw [← hboth]
  decide

end Configuration

end GrowthAudit
