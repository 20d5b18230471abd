import GrowthAudit.CppType.Verdict
import GrowthAudit.Proofs.Dump.DeclaredMembers
import GrowthAudit.Proofs.Dump.Headings

/-!
# Assignments and the implied members

A declared copy or move assignment keeps the language from adding constructors, and an object that
has one cannot be copied byte by byte.  An assignment from another type does neither of this, but
here every assignment counts.  This file says what it costs a record to have one, by a comparison
with the record of the same scope without it.

* `Configuration.withFunctions`: the configuration in which a scope declares other functions.
  Everything but the record of that scope is built as before
  (`Configuration.recordWithin_withFunctions`).
* `Configuration.assignment_unseen_iff`: **an assignment that is not virtual changes nothing exactly
  if the other functions already do to the record what it would do**.
* `Configuration.converting_assignment_seen`: the only assignment of a class takes a number, and the
  class loses its move constructor and cannot be copied byte by byte any more.
-/

namespace GrowthAudit.Configuration

variable {c : Configuration} {s : Scope} {i : Nat}

/-! ### Other functions in one scope -/

/-- The configuration in which a scope declares the given functions. -/
def withFunctions (c : Configuration) (i : Nat) (functions : List MemberFunction) :
    Configuration :=
  { c with scopes := c.scopes.modify i fun s => { s with functions } }

section

variable (functions : List MemberFunction)

theorem scope?_withFunctions (c : Configuration) (i j : Nat) :
    (c.withFunctions i functions).scope? j =
      (c.scope? j).map fun s => if i = j then { s with functions } else s := by
  rw [scope?, scope?, withFunctions, List.getElem?_modify]
  rfl

theorem scope?_withFunctions_self (hs : c.scope? i = some s) :
    (c.withFunctions i functions).scope? i = some { s with functions } := by
  rw [scope?_withFunctions, hs, Option.map_some, if_pos rfl]

theorem scope?_withFunctions_of_ne {j : Nat} (hj : j ≠ i) :
    (c.withFunctions i functions).scope? j = c.scope? j := by
  simp [scope?_withFunctions, Ne.symm hj]

theorem headings_withFunctions (c : Configuration) (i : Nat) :
    (c.withFunctions i functions).headings = c.headings := by
  refine headings_ext rfl fun j => ?_
  rw [scope?_withFunctions, Option.map_map]
  refine congrArg (Option.map · _) (funext fun s => ?_)
  rw [Function.comp_apply]
  split <;> rfl

/-- While the definition of a scope is under way, its functions are not read. -/
theorem recordWithin_withFunctions {path : List ScopeKey} (hpath : c.keyOf i ∈ path)
    (levels j : Nat) (memo : Memo) :
    (c.withFunctions i functions).recordWithin levels path j memo =
      c.recordWithin levels path j memo := by
  have hheadings := headings_withFunctions functions c i
  refine recordWithin_congr hheadings (fun k hk => outline?_congr hheadings ?_) levels j memo
  refine scope?_withFunctions_of_ne functions ?_
  rintro rfl
  exact hk hpath

theorem typeWithin_withFunctions {path : List ScopeKey} (hpath : c.keyOf i ∈ path) (levels : Nat) :
    (c.withFunctions i functions).typeWithin levels path = c.typeWithin levels path := by
  funext r memo
  cases r with
  | known t => rfl
  | record j => exact recordWithin_withFunctions functions hpath levels j memo

theorem Due.withFunctions {path : List ScopeKey} {memo : Memo} (h : c.Due i path memo) :
    (c.withFunctions i functions).Due i path memo := by
  have hkey := keyOf_congr (headings_withFunctions functions c i) i
  exact ⟨hkey ▸ h.unfinished, hkey ▸ h.idle⟩

/-- Where a scope declares other functions, its record differs in the constructors and in whether it
is trivially copyable, and in nothing else. -/
theorem recordWithin_pair {body : Nat} {path : List ScopeKey} {memo : Memo}
    (hs : c.scope? i = some s) (hbody : s.bodyStart = some body) (hdue : c.Due i path memo)
    (levels : Nat) :
    ∃ r r' : Record CppType,
      (c.recordWithin (levels + 1) path i memo).1 = .complete r ∧
        ((c.withFunctions i functions).recordWithin (levels + 1) path i memo).1 = .complete r' ∧
        r.bases = r'.bases ∧ r.fields = r'.fields ∧
        r.ctors = c.ctorsOf s
          (Token.locationOf (c.token? (ClassHead.ofBody c.tokens body).name)) ∧
        r'.ctors = c.ctorsOf { s with functions }
          (Token.locationOf (c.token? (ClassHead.ofBody c.tokens body).name)) ∧
        r.isTrivial = (c.functionsAreTrivial s && Record.partsAreTrivial r.bases r.fields) ∧
        r'.isTrivial = (c.functionsAreTrivial { s with functions } &&
          Record.partsAreTrivial r.bases r.fields) := by
  have hheadings := headings_withFunctions functions c i
  have ho := outline?_eq_some_iff.mpr ⟨s, body, hs, hbody, rfl⟩
  have ho' := outline?_eq_some_iff.mpr
    ⟨_, body, scope?_withFunctions_self functions hs, hbody, rfl⟩
  obtain ⟨bases, inner, fields, outer, hrecord, hbases, hfields⟩ :=
    recordWithin_of_outline hdue ho levels
  obtain ⟨bases', inner', fields', outer', hrecord', hbases', hfields'⟩ :=
    recordWithin_of_outline (hdue.withFunctions functions) ho' levels
  -- bases and members are built while the definition is under way, so they are the same
  rw [keyOf_congr hheadings, typeWithin_withFunctions functions List.mem_cons_self,
    outlineBase_congr hheadings] at hbases'
  rw [keyOf_congr hheadings, typeWithin_withFunctions functions List.mem_cons_self,
    outlineField_congr hheadings] at hfields'
  obtain ⟨rfl, rfl⟩ := Prod.mk.inj (hbases.symm.trans hbases')
  obtain ⟨rfl, rfl⟩ := Prod.mk.inj (hfields.symm.trans hfields')
  exact ⟨_, _, congrArg Prod.fst hrecord, congrArg Prod.fst hrecord', rfl, rfl, rfl, rfl, rfl, rfl⟩

end

/-! ### What an assignment costs -/

section

variable {front back : List MemberFunction} {f : MemberFunction}
  (hfunctions : s.functions = front ++ f :: back) (hkind : f.kind = .assignment)

include hfunctions hkind

/-- Without an assignment the constructors are the same exactly if the language adds the same
ones. -/
theorem ctorsOf_eq_iff (named : Location) :
    c.ctorsOf s named = c.ctorsOf { s with functions := front ++ back } named ↔
      addsMove { s with functions := front ++ back } = false ∧
        c.addsCopy s = c.addsCopy { s with functions := front ++ back } := by
  have hdeclared : s.functions.filter (·.kind.isConstructor) =
      (front ++ back).filter (·.kind.isConstructor) := by
    simp [hfunctions, List.filter_append, hkind, FunctionKind.isConstructor]
  have hctor : c.declaredCtor { s with functions := front ++ back } = c.declaredCtor s := rfl
  have hmove : addsMove s = false := by
    simp [addsMove, hfunctions, hkind, FunctionKind.isSpecial]
  rw [ctorsOf, ctorsOf, hdeclared, hctor, hmove, List.append_assoc, List.append_assoc,
    List.append_cancel_left_eq]
  cases addsMove { s with functions := front ++ back } <;> cases c.addsCopy s <;>
    cases c.addsCopy { s with functions := front ++ back } <;> simp [impliedCtor]

theorem addsCopy_eq_iff :
    c.addsCopy s = c.addsCopy { s with functions := front ++ back } ↔
      (c.TakesRvalue f →
        ∃ g ∈ front ++ back, g.kind = .copyConstructor ∨ c.HindersCopy g) := by
  have hsplit : c.addsCopy s = false ↔
      c.TakesRvalue f ∨ c.addsCopy { s with functions := front ++ back } = false := by
    rw [addsCopy_eq_false_iff, addsCopy_eq_false_iff, hfunctions]
    simp only [List.perm_middle.mem_iff, List.exists_mem_cons_iff]
    refine or_congr_left ?_
    simp [HindersCopy, hkind]
  rw [← addsCopy_eq_false_iff (s := { s with functions := front ++ back })]
  cases hwith : c.addsCopy s <;>
    cases hwithout : c.addsCopy { s with functions := front ++ back } <;> simp_all

theorem functionsAreTrivial_eq_true_iff (hvirtual : f.isVirtual = false) :
    c.functionsAreTrivial s = true ↔
      c.Defaults f ∧ c.functionsAreTrivial { s with functions := front ++ back } = true := by
  rw [functionsAreTrivial_iff, functionsAreTrivial_iff, hfunctions]
  simp only [List.perm_middle.mem_iff, List.forall_mem_cons]
  refine and_congr_left fun _ => ?_
  simp [hkind, hvirtual]

/-- **What an assignment costs its record.**  Two records are compared, that of a scope with an
assignment that is not virtual and that of the same scope without it; what is remembered and what is
under way is the same.  Both are complete.  They have the same constructors exactly if a special
member that is left keeps the language from adding a move constructor and, in case the assignment
takes an rvalue reference, another function that is left is or hinders a copy constructor; and they
agree in whether they are trivially copyable exactly if the assignment is defaulted or the record
without it is not trivially copyable either. -/
theorem assignment_unseen_iff (hvirtual : f.isVirtual = false) {body : Nat} {path : List ScopeKey}
    {memo : Memo} (hs : c.scope? i = some s) (hbody : s.bodyStart = some body)
    (hdue : c.Due i path memo) (levels : Nat) :
    ∃ r r' : Record CppType,
      (c.recordWithin (levels + 1) path i memo).1 = .complete r ∧
        ((c.withFunctions i (front ++ back)).recordWithin (levels + 1) path i memo).1 =
          .complete r' ∧
        (r.ctors = r'.ctors ↔
          (∃ g ∈ front ++ back, g.kind = .moveConstructor ∨ HindersMove g) ∧
            (c.TakesRvalue f →
              ∃ g ∈ front ++ back, g.kind = .copyConstructor ∨ c.HindersCopy g)) ∧
        (r.isTrivial = r'.isTrivial ↔ (r'.isTrivial = true → c.Defaults f)) := by
  obtain ⟨r, r', hr, hr', -, -, hctors, hctors', htrivial, htrivial'⟩ :=
    recordWithin_pair (front ++ back) hs hbody hdue levels
  refine ⟨r, r', hr, hr', ?_, ?_⟩
  · rw [hctors, hctors', ctorsOf_eq_iff hfunctions hkind, addsMove_eq_false_iff,
      addsCopy_eq_iff hfunctions hkind]
  · have hfewer := functionsAreTrivial_eq_true_iff (c := c) hfunctions hkind hvirtual
    rw [Bool.eq_iff_iff, htrivial, htrivial', Bool.and_eq_true, Bool.and_eq_true, hfewer]
    tauto

end

/-- The class `A` declares a copy constructor and then an assignment. -/
def copiedScope : Scope where
  kind := .record
  className := "A"
  id := some "1"
  bodyStart := some 2
  functions := [
    { kind := .copyConstructor, nameToken := some 3 },
    { kind := .assignment, nameToken := some 12 }]

/-- `struct A { A(const A&); A& operator=(B&&); };` -/
def copiedSample : Configuration where
  tokens := [
    { text := "struct" }, { text := "A" }, { text := "\x7b" }, { text := "A" }, { text := "(" },
    { text := "const" }, { text := "A" }, { text := "&" }, { text := ")" }, { text := ";" },
    { text := "A" }, { text := "&" }, { text := "operator" }, { text := "=" }, { text := "(" },
    { text := "B" }, { text := "&&" }, { text := ")" }, { text := ";" }, { text := "\x7d" },
    { text := ";" }]
  scopes := [copiedScope]

/-- Beside the copy constructor the assignment changes nothing, although it takes an rvalue
reference. -/
theorem assignment_unseen_iff_sample :
    ∃ f g, copiedSample.scope? 0 = some copiedScope ∧ copiedScope.bodyStart = some 2 ∧
      copiedSample.Due 0 [] [] ∧ copiedScope.functions = [g] ++ f :: [] ∧
      f.kind = .assignment ∧ f.isVirtual = false ∧ copiedSample.TakesRvalue f ∧
      ∃ r r' : Record CppType,
        (copiedSample.recordWithin 2 [] 0 []).1 = .complete r ∧
          ((copiedSample.withFunctions 0 ([g] ++ [])).recordWithin 2 [] 0 []).1 = .complete r' ∧
          r.ctors = r'.ctors ∧ r.isTrivial = r'.isTrivial := by
  have hfunctions : copiedScope.functions = [{ kind := .copyConstructor, nameToken := some 3 }] ++
      { kind := .assignment, nameToken := some 12 } :: [] := rfl
  have hs : copiedSample.scope? 0 = some copiedScope := rfl
  have hdue : copiedSample.Due 0 [] [] := ⟨rfl, List.not_mem_nil⟩
  obtain ⟨r, r', hr, hr', hctors, htrivial⟩ :=
    assignment_unseen_iff hfunctions rfl rfl hs rfl hdue 1
  have hfalse : some r'.isTrivial = some false :=
    (congrArg (fun t => t.definition.map (·.isTrivial)) hr').symm.trans (by decide +kernel)
  refine ⟨_, _, hs, rfl, hdue, hfunctions, rfl, rfl, takesRvalue_iff.mp (by decide), r, r', hr, hr',
    ?_, ?_⟩
  · exact hctors.mpr ⟨⟨_, List.mem_cons_self, Or.inr (Or.inl rfl)⟩,
      fun _ => ⟨_, List.mem_cons_self, Or.inl rfl⟩⟩
  · refine htrivial.mpr fun htrue => ?_
    cases htrue.symm.trans (Option.some.inj hfalse)

/-- `struct A { A& operator=(...); };` with the given kind and the given parameters. -/
def assignedSample (kind : FunctionKind) (parameters : List Token) : Configuration where
  tokens := [
    { text := "struct" }, { text := "A" }, { text := "\x7b" }, { text := "A" }, { text := "&" },
    { text := "operator" }, { text := "=" }, { text := "(" }] ++
    (parameters ++ [{ text := ")" }, { text := ";" }, { text := "\x7d" }, { text := ";" }])
  scopes := [
    { kind := .record, className := "A", id := some "1", bodyStart := some 2
      functions := [{ kind, nameToken := some 5 }] }]

/-- The class has an assignment from `int` and nothing else.  Without it the language adds a move
constructor and the class can be copied byte by byte; with it neither is so, and the class
degrades. -/
theorem converting_assignment_seen :
    ∃ s f, (assignedSample .assignment [{ text := "int" }]).scope? 0 = some s ∧
      s.className = "A" ∧ s.functions = [] ++ f :: [] ∧ f.kind = .assignment ∧
      f.isVirtual = false ∧
      (Token.between (assignedSample .assignment [{ text := "int" }]).tokens 7
        (Token.closing? (assignedSample .assignment [{ text := "int" }]).tokens 7)).map (·.text) =
          ["int"] ∧
      ((assignedSample .assignment [{ text := "int" }]).recordType 0 []).1.definition.map
        (fun r => (r.ctors, r.isTrivial)) = some ([impliedCtor "A" {} false], false) ∧
      ((assignedSample .assignment [{ text := "int" }]).recordType 0 []).1.degrades = true ∧
      (((assignedSample .assignment [{ text := "int" }]).withFunctions 0 []).recordType 0
        []).1.definition.map (fun r => (r.ctors, r.isTrivial)) =
          some ([impliedCtor "A" {} true, impliedCtor "A" {} false], true) ∧
      (((assignedSample .assignment [{ text := "int" }]).withFunctions 0 []).recordType 0
        []).1.degrades = false :=
  ⟨_, _, rfl, rfl, rfl, rfl, rfl, by decide, by decide +kernel, by decide +kernel,
    by decide +kernel, by decide +kernel⟩

end GrowthAudit.Configuration
