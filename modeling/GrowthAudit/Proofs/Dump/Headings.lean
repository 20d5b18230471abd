import GrowthAudit.Dump.ContainerUse

/-!
# What names depend on

Names are read off the headings of the scopes: the kind, the name, the place among the other scopes
and the declared variables.  The functions of a scope and the place of its body do not count.
`Configuration.headings` leaves them out, and each lemma of this file says that one of the lookups
does not notice.  So two configurations with the same headings resolve every name, every row of
tokens and every variable alike.

The outline of a scope depends on the headings and on that scope (`Configuration.outline?_congr`),
and a run for a record does not read the outlines of the definitions that are under way
(`Configuration.recordWithin_congr`).

The comments that suppress diagnostics are not read at all: `containerSites_comments` says that the
uses of containers and their types are the same whatever the comments are.
-/

namespace GrowthAudit

/-- A scope without its body and its functions. -/
def Scope.heading (s : Scope) : Scope := { s with bodyStart := none, functions := [] }

namespace Configuration

/-- The configuration with nothing but the headings of its scopes. -/
def headings (c : Configuration) : Configuration :=
  { tokens := c.tokens, scopes := c.scopes.map Scope.heading }

variable (c : Configuration)

@[simp] theorem length_headings : c.headings.scopes.length = c.scopes.length :=
  List.length_map _

@[simp] theorem token?_headings (i : Option Nat) : c.headings.token? i = c.token? i := rfl

@[simp] theorem scope?_headings (i : Nat) :
    c.headings.scope? i = (c.scope? i).map Scope.heading := by
  rw [scope?, scope?, headings, List.getElem?_map]

@[simp] theorem kindOf_headings (i : Nat) : c.headings.kindOf i = c.kindOf i := by
  rw [kindOf, kindOf, scope?_headings, Option.map_map]
  rfl

@[simp] theorem className_headings (i : Nat) : c.headings.className i = c.className i := by
  rw [className, className, scope?_headings, Option.map_map]
  rfl

@[simp] theorem keyOf_headings (i : Nat) : c.headings.keyOf i = c.keyOf i := by
  rw [keyOf, keyOf, scope?_headings]
  cases c.scope? i <;> rfl

@[simp] theorem enclosingNames_headings (bound : Nat) (i : Option Nat) :
    c.headings.enclosingNames bound i = c.enclosingNames bound i := by
  induction bound generalizing i with
  | zero => rfl
  | succ bound ih =>
    cases i with
    | none => rfl
    | some i =>
      rw [enclosingNames, enclosingNames, scope?_headings]
      cases c.scope? i with
      | none => rfl
      | some s =>
        simp only [Option.map_some, ih]
        rfl

@[simp] theorem qualifiedName_headings (i : Nat) :
    c.headings.qualifiedName i = c.qualifiedName i := by
  rw [qualifiedName, qualifiedName, scope?_headings]
  cases c.scope? i with
  | none => rfl
  | some s =>
    simp only [Option.map_some, length_headings, enclosingNames_headings]
    rfl

@[simp] theorem named_headings (kind : ScopeKind) : c.headings.named kind = c.named kind := by
  rw [named, named, length_headings]
  refine congrArg (List.filter · _) (funext fun i => ?_)
  rw [scope?_headings]
  cases c.scope? i <;> rfl

@[simp] theorem findRecord?_headings (name : String) :
    c.headings.findRecord? name = c.findRecord? name := by
  simp only [findRecord?, named_headings, qualifiedName_headings, className_headings]

@[simp] theorem isEnumeration_headings (name : String) :
    c.headings.isEnumeration name = c.isEnumeration name := by
  simp only [isEnumeration, enumerationNames, named_headings, qualifiedName_headings,
    className_headings]

/-! ### Resolution -/

@[simp] theorem lookupName_headings (name : String) :
    c.headings.lookupName name = c.lookupName name := by
  rw [lookupName, lookupName, isEnumeration_headings, findRecord?_headings]

@[simp] theorem lookupScope_headings (i : Nat) (name : String) :
    c.headings.lookupScope i name = c.lookupScope i name := by
  rw [lookupScope, lookupScope, kindOf_headings, qualifiedName_headings, lookupName_headings]

@[simp] theorem lookupTokens_headings (ts : List Token) :
    c.headings.lookupTokens ts = c.lookupTokens ts := by
  simp only [lookupTokens, lookupName_headings, lookupScope_headings]

theorem typeTokens_headings (v : Variable) : c.headings.typeTokens v = c.typeTokens v := rfl

@[simp] theorem lookupValueType?_headings (v : Variable) (vt : ValueType) :
    c.headings.lookupValueType? v vt = c.lookupValueType? v vt := by
  simp only [lookupValueType?, kindOf_headings, lookupScope_headings, typeTokens_headings]

@[simp] theorem lookupVariable_headings (v : Variable) :
    c.headings.lookupVariable v = c.lookupVariable v := by
  have hvalue : c.headings.lookupValueType? v = c.lookupValueType? v :=
    funext (lookupValueType?_headings c v)
  rw [lookupVariable, lookupVariable, token?_headings, hvalue, lookupTokens_headings]
  rfl

@[simp] theorem outlineBase_headings (b : BaseClause) :
    c.headings.outlineBase b = c.outlineBase b := by
  rw [outlineBase, outlineBase, lookupTokens_headings]

@[simp] theorem outlineField_headings (v : Variable) :
    c.headings.outlineField v = c.outlineField v := by
  rw [outlineField, outlineField, lookupVariable_headings]
  rfl

/-! ### Outlines and records -/

/-- The headings are the same if the tokens are and scopes at the same position have the same
headings. -/
theorem headings_ext {c d : Configuration} (htokens : d.tokens = c.tokens)
    (hscopes : ∀ i, (d.scope? i).map Scope.heading = (c.scope? i).map Scope.heading) :
    d.headings = c.headings := by
  have hscopes : d.scopes.map Scope.heading = c.scopes.map Scope.heading := by
    refine List.ext_getElem? fun i => ?_
    rw [List.getElem?_map, List.getElem?_map]
    exact hscopes i
  rw [headings, headings, htokens, hscopes]

section

variable {c d : Configuration} (h : d.headings = c.headings)

include h

theorem tokens_congr : d.tokens = c.tokens := by
  have htokens : d.headings.tokens = c.headings.tokens := by rw [h]
  exact htokens

theorem keyOf_congr (i : Nat) : d.keyOf i = c.keyOf i := by
  rw [← keyOf_headings, h, keyOf_headings]

theorem qualifiedName_congr (i : Nat) : d.qualifiedName i = c.qualifiedName i := by
  rw [← qualifiedName_headings, h, qualifiedName_headings]

theorem outlineBase_congr : d.outlineBase = c.outlineBase := by
  funext b
  rw [← outlineBase_headings, h, outlineBase_headings]

theorem outlineField_congr : d.outlineField = c.outlineField := by
  funext v
  rw [← outlineField_headings, h, outlineField_headings]

/-- The constructors of a scope are read off its functions and the tokens. -/
theorem ctorsOf_congr : d.ctorsOf = c.ctorsOf := by
  have htokens := tokens_congr h
  cases c
  cases d
  cases htokens
  rfl

theorem functionsAreTrivial_congr : d.functionsAreTrivial = c.functionsAreTrivial := by
  funext s
  rw [functionsAreTrivial, functionsAreTrivial, tokens_congr h]

/-- The outline of a scope depends on the headings and on this scope alone. -/
theorem outline?_congr {i : Nat} (hs : d.scope? i = c.scope? i) :
    d.outline? i = c.outline? i := by
  have htoken : d.token? = c.token? := by
    funext j
    rw [token?, token?, tokens_congr h]
  simp only [outline?, hs, htoken, tokens_congr h, qualifiedName_congr h, outlineBase_congr h,
    outlineField_congr h, ctorsOf_congr h, functionsAreTrivial_congr h]

/-- A run does not read the definitions that are under way. -/
theorem recordWithin_congr {path : List ScopeKey}
    (hout : ∀ i, c.keyOf i ∉ path → d.outline? i = c.outline? i) (levels i : Nat) (memo : Memo) :
    d.recordWithin levels path i memo = c.recordWithin levels path i memo := by
  induction levels generalizing path i memo with
  | zero => rw [recordWithin, recordWithin, qualifiedName_congr h]
  | succ levels ih =>
    have hbelow : ∀ j memo, d.recordWithin levels (c.keyOf i :: path) j memo =
        c.recordWithin levels (c.keyOf i :: path) j memo :=
      fun j memo => ih (fun k hk => hout k fun hmem => hk (List.mem_cons_of_mem _ hmem)) j memo
    by_cases hpath : c.keyOf i ∈ path
    · have hmet := List.contains_iff_mem.mpr hpath
      simp only [recordWithin, keyOf_congr h, qualifiedName_congr h, hmet, if_true]
    · simp only [recordWithin, keyOf_congr h, qualifiedName_congr h, hout i hpath, hbelow]

end

/-! ### Comments -/

section

variable (c : Configuration) (suppressions : List SuppressionComment)

theorem lookupTokens_comments (ts : List Token) :
    { c with suppressions }.lookupTokens ts = c.lookupTokens ts := by
  rw [← lookupTokens_headings, ← lookupTokens_headings c]
  rfl

theorem recordWithin_comments (levels : Nat) (path : List ScopeKey) (i : Nat) (memo : Memo) :
    { c with suppressions }.recordWithin levels path i memo =
      c.recordWithin levels path i memo := by
  have hheadings : { c with suppressions }.headings = c.headings := rfl
  exact recordWithin_congr hheadings (fun _ _ => outline?_congr hheadings rfl) levels i memo

theorem containerSites_comments (containers : List String) (memo : Memo) :
    { c with suppressions }.containerSites containers memo = c.containerSites containers memo := by
  have htype : { c with suppressions }.typeOf = c.typeOf := by
    funext r memo
    cases r with
    | known type => rfl
    | record i => exact recordWithin_comments c suppressions _ _ i memo
  simp only [containerSites, lookupTokens_comments, htype]

end

end Configuration

end GrowthAudit
