import GrowthAudit.Proofs.CppType.SubObjects
import GrowthAudit.Proofs.Dump.ClassHeads

/-!
# Declared and implied members

Which move and copy constructor a record has follows from the functions that its scope declares.
The first function of a kind decides; a deleted one counts as absent; where there is none the
language adds one, unless a function of some other kind stands in the way.

* `Configuration.Declares`: what a declared constructor looks like.
* `Configuration.TakesRvalue`: what it is for a function to take an rvalue reference.
* `Configuration.Finds`: how the functions decide on the constructor of a kind.
* `Configuration.recordWithin_specialMembers`: **the special members of every record that is built
  are those that its functions decide on**, and no constructor that a user provides has an implied
  specification.

A dump has one kind for all assignments, and `Scope.AssignmentsUnmarked` says so.  Whether one of
them moves objects is read off its parameters.
-/

namespace GrowthAudit

/-! ### Specifications that are written -/

namespace Specifiers

variable {ts : List Token}

theorem ofCondition_ne_unevaluated (texts : List String) :
    ofCondition texts ≠ .unevaluated := by
  unfold ofCondition
  split
  · simp
  · split <;> simp

/-- What one token writes is never the implied specification. -/
theorem step_ne_unevaluated {s : Specifiers} (i : Nat) (h : s.spec ≠ .unevaluated) :
    (step ts i s).1.spec ≠ .unevaluated := by
  unfold step
  by_cases hnoexcept : Token.textOf ts[i]? = "noexcept"
  · by_cases hopen : Token.textOf ts[i + 1]? = "("
    · simpa [hnoexcept, hopen] using ofCondition_ne_unevaluated _
    · simp [hnoexcept, hopen]
  · by_cases hthrow : Token.textOf ts[i]? = "throw" ∧ Token.textOf ts[i + 1]? = "("
    · rw [if_neg hnoexcept, if_pos hthrow]
      show (if _ then ExceptionSpec.throwNothing else .throwSome) ≠ _
      split <;> simp
    · by_cases hassign : Token.textOf ts[i]? = "="
      · simp [hassign, h]
      · simp [hnoexcept, hthrow, hassign, h]

theorem scan?_ne_unevaluated {bound i : Nat} {s r : Specifiers}
    (hscan : scan? ts bound i s = some r) (h : s.spec ≠ .unevaluated) : r.spec ≠ .unevaluated := by
  induction bound generalizing i s with
  | zero => cases hscan
  | succ bound ih =>
    rw [scan?] at hscan
    split at hscan
    · cases hscan
      exact h
    · split at hscan
      · cases hscan
        exact h
      · have hstep : (step ts i s).1.spec ≠ .unevaluated := step_ne_unevaluated i h
        split at hscan
        next heq =>
          cases hscan
          rwa [heq] at hstep
        next heq =>
          rw [heq] at hstep
          exact ih hscan hstep

theorem spec_ofFunction_ne_unevaluated (name : Option Nat) :
    (ofFunction ts name).spec ≠ .unevaluated := by
  unfold ofFunction
  cases hread : read? ts name with
  | none => simp
  | some r =>
    show r.spec ≠ .unevaluated
    unfold read? at hread
    split at hread
    · cases hread
      simp
    · split at hread
      · split at hread
        · cases hread
          simp
        · exact scan?_ne_unevaluated hread (by simp)
      · cases hread
        simp

end Specifiers

/-- No function of a scope is told apart as a move assignment by its kind: all assignments are of
the one kind that a dump has for them. -/
def Scope.AssignmentsUnmarked (s : Scope) : Prop := ∀ f ∈ s.functions, f.kind ≠ .moveAssignment

namespace Configuration

variable {c : Configuration} {s : Scope}

/-! ### Declared constructors -/

/-- A function is defaulted, by its specifiers or by its mark. -/
def Defaults (c : Configuration) (f : MemberFunction) : Prop :=
  (Specifiers.ofFunction c.tokens f.nameToken).isDefaulted = true ∨ f.isDefaulted = true

/-- A function is deleted, by its specifiers or by its mark. -/
def Deletes (c : Configuration) (f : MemberFunction) : Prop :=
  (Specifiers.ofFunction c.tokens f.nameToken).isDeleted = true ∨ f.isDeleted = true

/-- A constructor is the one that a function of a scope declares.  Its specification is the written
one, and it is the implied one if it is defaulted and none is written. -/
structure Declares (c : Configuration) (s : Scope) (f : MemberFunction) (d : Ctor) : Prop where
  name : d.name = s.className
  location : d.location = Token.locationOf (c.token? f.nameToken)
  isMove : d.isMove = true ↔ f.kind = .moveConstructor
  isCopy : d.isCopy = true ↔ f.kind = .copyConstructor
  isDefaulted : d.isDefaulted = true ↔ c.Defaults f
  isDeleted : d.isDeleted = true ↔ c.Deletes f
  isUserProvided : d.isUserProvided = true ↔ ¬ (c.Defaults f ∨ c.Deletes f)
  implied : c.Defaults f → (Specifiers.ofFunction c.tokens f.nameToken).spec = .absent →
    d.spec = .unevaluated
  written : ¬ (c.Defaults f ∧ (Specifiers.ofFunction c.tokens f.nameToken).spec = .absent) →
    d.spec = (Specifiers.ofFunction c.tokens f.nameToken).spec

theorem declares_declaredCtor (c : Configuration) (s : Scope) (f : MemberFunction) :
    c.Declares s f (c.declaredCtor s f) where
  name := rfl
  location := rfl
  isMove := beq_iff_eq
  isCopy := beq_iff_eq
  isDefaulted := Bool.or_eq_true_iff
  isDeleted := Bool.or_eq_true_iff
  isUserProvided := by
    simp only [declaredCtor, Defaults, Deletes, Bool.not_eq_true', ← Bool.not_eq_true,
      Bool.or_eq_true]
  implied := by
    intro hdefaults hspec
    have hdefaulted : (declaredCtor c s f).isDefaulted = true := Bool.or_eq_true_iff.mpr hdefaults
    exact if_pos (Bool.and_eq_true_iff.mpr ⟨hdefaulted, beq_iff_eq.mpr hspec⟩)
  written := by
    intro hnot
    refine if_neg fun h => hnot ?_
    obtain ⟨hdefaulted, hspec⟩ := Bool.and_eq_true_iff.mp h
    exact ⟨Bool.or_eq_true_iff.mp hdefaulted, beq_iff_eq.mp hspec⟩

/-- A constructor that a user provides has the specification that is written. -/
theorem Declares.spec_ne_unevaluated {f : MemberFunction} {d : Ctor} (h : c.Declares s f d)
    (huser : d.isUserProvided = true) : d.spec ≠ .unevaluated := by
  have hnot := h.isUserProvided.mp huser
  rw [h.written fun hdefaults => hnot (Or.inl hdefaults.1)]
  exact Specifiers.spec_ofFunction_ne_unevaluated _

/-! ### Rvalue references -/

/-- The parameters of a function begin at a position: there stands the first opening parenthesis
from its name on, at most three tokens behind it. -/
structure ParametersAt (c : Configuration) (f : MemberFunction) (i : Nat) : Prop where
  exists_name : ∃ name k, f.nameToken = some name ∧ i = name + k ∧ k ≤ 3 ∧
    ∀ j < k, Token.textOf c.tokens[name + j]? ≠ "("
  text : Token.textOf c.tokens[i]? = "("

/-- A function takes an rvalue reference: one is marked among its parameters, outside template
argument lists. -/
def TakesRvalue (c : Configuration) (f : MemberFunction) : Prop :=
  ∃ i, c.ParametersAt f i ∧
    ∃ t ∈ Token.topLevel (Token.between c.tokens i (Token.closing? c.tokens i)), t.text = "&&"

theorem ParametersAt.findIdx?_eq {f : MemberFunction} {i : Nat} (h : c.ParametersAt f i) :
    ∃ name k, f.nameToken = some name ∧ i = name + k ∧
      ((c.tokens.drop name).take 4).findIdx? (·.text == "(") = some k := by
  obtain ⟨⟨name, k, hname, rfl, hk, hbefore⟩, htext⟩ := h
  exact ⟨name, k, hname, rfl,
    Token.findIdx?_opening_eq_some_iff.mpr ⟨Nat.lt_succ_of_le hk, htext, hbefore⟩⟩

theorem takesRvalue_iff {f : MemberFunction} : c.takesRvalue f = true ↔ c.TakesRvalue f := by
  constructor
  · intro h
    rw [takesRvalue] at h
    split at h
    · cases h
    next name hname =>
      split at h
      · cases h
      next k hk =>
        obtain ⟨hlt, htext, hbefore⟩ := Token.findIdx?_opening_eq_some_iff.mp hk
        obtain ⟨t, ht, hmark⟩ := List.any_eq_true.mp h
        exact ⟨name + k, ⟨⟨name, k, hname, rfl, Nat.le_of_lt_succ hlt, hbefore⟩, htext⟩, t, ht,
          eq_of_beq hmark⟩
  · rintro ⟨i, hparameters, t, ht, hmark⟩
    obtain ⟨name, k, hname, rfl, hk⟩ := hparameters.findIdx?_eq
    rw [takesRvalue, hname]
    simp only [hk]
    exact List.any_eq_true.mpr ⟨t, ht, beq_iff_eq.mpr hmark⟩

/-! ### The constructor of a kind -/

/-- How the functions of a scope decide on the constructor of a kind: the first function of that
kind declares it, and it is absent if that one is deleted.  Without a function of the kind it is the
one that the language adds, unless a function hinders that. -/
inductive Finds (c : Configuration) (s : Scope) (kind : FunctionKind)
    (Hinders : MemberFunction → Prop) (added : Ctor) : Option Ctor → Prop
  | declared {front back : List MemberFunction} {f : MemberFunction} {d : Ctor} :
      s.functions = front ++ f :: back → (∀ g ∈ front, g.kind ≠ kind) → f.kind = kind →
      ¬ c.Deletes f → c.Declares s f d → Finds c s kind Hinders added (some d)
  | deleted {front back : List MemberFunction} {f : MemberFunction} :
      s.functions = front ++ f :: back → (∀ g ∈ front, g.kind ≠ kind) → f.kind = kind →
      c.Deletes f → Finds c s kind Hinders added none
  | added : (∀ f ∈ s.functions, f.kind ≠ kind) → (∀ f ∈ s.functions, ¬ Hinders f) →
      Finds c s kind Hinders added (some added)
  | hindered {f : MemberFunction} : (∀ f ∈ s.functions, f.kind ≠ kind) → f ∈ s.functions →
      Hinders f → Finds c s kind Hinders added none

/-- What hinders the language from adding a move constructor. -/
def HindersMove (f : MemberFunction) : Prop :=
  f.kind = .copyConstructor ∨ f.kind = .assignment ∨ f.kind = .destructor

/-- A function moves objects: it is a move constructor or an assignment that takes an rvalue
reference. -/
def MovesObjects (c : Configuration) (f : MemberFunction) : Prop :=
  f.kind = .moveConstructor ∨ (f.kind = .assignment ∧ c.TakesRvalue f)

/-- What hinders the language from adding a copy constructor. -/
def HindersCopy (c : Configuration) (f : MemberFunction) : Prop :=
  f.kind = .moveConstructor ∨ (f.kind = .assignment ∧ c.TakesRvalue f) ∨ f.kind = .moveAssignment

/-- Where a dump has one kind for all assignments, this is any function that moves objects. -/
theorem hindersCopy_iff {f : MemberFunction} (hkind : f.kind ≠ .moveAssignment) :
    c.HindersCopy f ↔ c.MovesObjects f := by
  rw [HindersCopy, MovesObjects, or_iff_left hkind]

/-- A mark that is the kind of the function finds the first constructor of that kind. -/
theorem find?_declared {kind : FunctionKind} (hkind : kind.isConstructor = true)
    {mark : Ctor → Bool} (hmark : ∀ f, mark (c.declaredCtor s f) = (f.kind == kind)) :
    ((s.functions.filter (·.kind.isConstructor)).map (c.declaredCtor s)).find? mark =
      (s.functions.find? (·.kind == kind)).map (c.declaredCtor s) := by
  rw [List.find?_map, List.find?_filter]
  congr 2
  funext f
  by_cases hf : f.kind = kind <;> simp [hmark, hf, hkind]

theorem find?_ctorsOf_isMove (c : Configuration) (s : Scope) (named : Location) :
    (c.ctorsOf s named).find? (·.isMove) =
      ((s.functions.find? (·.kind == .moveConstructor)).map (c.declaredCtor s)).or
        (if addsMove s then some (impliedCtor s.className named true) else none) := by
  rw [ctorsOf, List.append_assoc, List.find?_append, find?_declared rfl fun _ => rfl]
  congr 1
  by_cases hmove : addsMove s <;> by_cases hcopy : c.addsCopy s <;>
    simp [hmove, hcopy, impliedCtor]

theorem find?_ctorsOf_isCopy (c : Configuration) (s : Scope) (named : Location) :
    (c.ctorsOf s named).find? (·.isCopy) =
      ((s.functions.find? (·.kind == .copyConstructor)).map (c.declaredCtor s)).or
        (if c.addsCopy s then some (impliedCtor s.className named false) else none) := by
  rw [ctorsOf, List.append_assoc, List.find?_append, find?_declared rfl fun _ => rfl]
  congr 1
  by_cases hmove : addsMove s <;> by_cases hcopy : c.addsCopy s <;>
    simp [hmove, hcopy, impliedCtor]

/-- The first of a kind or else what is added, where deleted ones are left out, is what the
functions decide on. -/
theorem finds_of_find? {kind : FunctionKind} {Hinders : MemberFunction → Prop} {added : Ctor}
    {adds : Bool} (hadded : added.isDeleted = false)
    (hadds : adds = false ↔ ∃ f ∈ s.functions, f.kind = kind ∨ Hinders f) :
    c.Finds s kind Hinders added
      ((((s.functions.find? (·.kind == kind)).map (c.declaredCtor s)).or
        (if adds then some added else none)).filter (!·.isDeleted)) := by
  cases hfind : s.functions.find? (·.kind == kind) with
  | some f =>
    obtain ⟨hkind, front, back, hfunctions, hfront⟩ := List.find?_eq_some_iff_append.mp hfind
    have hfront : ∀ g ∈ front, g.kind ≠ kind := by simpa using hfront
    have hdeclares := c.declares_declaredCtor s f
    by_cases hdeletes : c.Deletes f
    · have hdeleted := hdeclares.isDeleted.mpr hdeletes
      simpa [Option.filter, hdeleted] using
        Finds.deleted hfunctions hfront (beq_iff_eq.mp hkind) hdeletes
    · have hkept : (c.declaredCtor s f).isDeleted = false :=
        Bool.eq_false_iff.mpr fun h => hdeletes (hdeclares.isDeleted.mp h)
      simpa [Option.filter, hkept] using
        Finds.declared hfunctions hfront (beq_iff_eq.mp hkind) hdeletes hdeclares
  | none =>
    have hnone : ∀ f ∈ s.functions, f.kind ≠ kind := by simpa using List.find?_eq_none.mp hfind
    cases hkept : adds with
    | true =>
      have hfree : ∀ f ∈ s.functions, ¬ Hinders f := by
        intro f hf hhinders
        cases hkept.symm.trans (hadds.mpr ⟨f, hf, Or.inr hhinders⟩)
      simpa [Option.filter, hadded] using Finds.added hnone hfree
    | false =>
      obtain ⟨f, hf, hhinders⟩ := hadds.mp hkept
      simpa using Finds.hindered hnone hf (hhinders.resolve_left (hnone f hf))

theorem addsMove_eq_false_iff :
    addsMove s = false ↔ ∃ f ∈ s.functions, f.kind = .moveConstructor ∨ HindersMove f := by
  simp only [addsMove, Bool.not_eq_false', List.any_eq_true]
  refine exists_congr fun f => and_congr_right fun _ => ?_
  cases hkind : f.kind <;> simp [HindersMove, FunctionKind.isSpecial, hkind]

theorem addsCopy_eq_false_iff :
    c.addsCopy s = false ↔
      ∃ f ∈ s.functions, f.kind = .copyConstructor ∨ c.HindersCopy f := by
  simp only [addsCopy, Bool.not_eq_false', List.any_eq_true]
  refine exists_congr fun f => and_congr_right fun _ => ?_
  cases hkind : f.kind <;> simp [HindersCopy, isMoveAssignment, takesRvalue_iff, hkind]

/-- Where all assignments are of one kind, a copy constructor is added unless there is one or some
function moves objects. -/
theorem addsCopy_eq_false_iff_movesObjects (hkinds : s.AssignmentsUnmarked) :
    c.addsCopy s = false ↔
      ∃ f ∈ s.functions, f.kind = .copyConstructor ∨ c.MovesObjects f := by
  rw [addsCopy_eq_false_iff]
  exact exists_congr fun f =>
    and_congr_right fun hf => or_congr_right (hindersCopy_iff (hkinds f hf))

/-- The functions stand in the way of trivial copies unless none is virtual and every special member
is defaulted. -/
theorem functionsAreTrivial_iff :
    c.functionsAreTrivial s = true ↔ ∀ f ∈ s.functions, f.isVirtual = false ∧
      (f.kind = .copyConstructor ∨ f.kind = .moveConstructor ∨ f.kind = .assignment ∨
        f.kind = .destructor → c.Defaults f) := by
  simp only [functionsAreTrivial, List.all_eq_true, Bool.and_eq_true, Bool.not_eq_true']
  refine forall₂_congr fun f _ => and_congr_right fun _ => ?_
  cases hkind : f.kind <;> simp [FunctionKind.isSpecial, Defaults]

/-! ### Records -/

/-- The constructors are those that are declared and then those that are added. -/
theorem ctorsOf_eq_append (c : Configuration) (s : Scope) (named : Location) :
    ∃ declared added, c.ctorsOf s named = declared ++ added ∧
      List.Forall₂ (c.Declares s) (s.functions.filter (·.kind.isConstructor)) declared ∧
      ∀ d ∈ added, d = impliedCtor s.className named d.isMove := by
  refine ⟨_, _, List.append_assoc _ _ _, ?_, ?_⟩
  · rw [List.forall₂_map_right_iff]
    exact List.forall₂_same.mpr fun f _ => c.declares_declaredCtor s f
  · intro d hd
    rcases List.mem_append.mp hd with hd | hd
    · split at hd
      · rw [List.mem_singleton.mp hd]
        rfl
      · cases hd
    · split at hd
      · rw [List.mem_singleton.mp hd]
        rfl
      · cases hd

/-- **The special members of a record follow the functions of its scope.**  Whenever a record is
built whose scope has assignments of the common kind only, its constructors are those that are
declared, in their order, and then those that the language adds; the functions decide on the move
and on the copy constructor, whatever their number and order; and the specification of a constructor
that a user provides is never the implied one. -/
theorem recordWithin_specialMembers {i body : Nat} {path : List ScopeKey} {memo : Memo}
    (hs : c.scope? i = some s) (hbody : s.bodyStart = some body) (hkinds : s.AssignmentsUnmarked)
    (hdue : c.Due i path memo) (levels : Nat) :
    ∃ r memo' declared added,
      c.recordWithin (levels + 1) path i memo = (.complete r, memo') ∧
        r.ctors = declared ++ added ∧
        List.Forall₂ (c.Declares s) (s.functions.filter (·.kind.isConstructor)) declared ∧
        (∀ d ∈ added, d = impliedCtor s.className
          (Token.locationOf (c.token? (ClassHead.ofBody c.tokens body).name)) d.isMove) ∧
        c.Finds s .moveConstructor HindersMove (impliedCtor s.className
          (Token.locationOf (c.token? (ClassHead.ofBody c.tokens body).name)) true) r.moveCtor? ∧
        c.Finds s .copyConstructor c.MovesObjects (impliedCtor s.className
          (Token.locationOf (c.token? (ClassHead.ofBody c.tokens body).name)) false) r.copyCtor? ∧
        ∀ d ∈ r.ctors, d.isUserProvided = true → d.spec ≠ .unevaluated := by
  have ho := outline?_eq_some_iff.mpr ⟨s, body, hs, hbody, rfl⟩
  obtain ⟨bases, inner, fields, outer, hrecord, -, -⟩ := recordWithin_of_outline hdue ho levels
  obtain ⟨declared, added, hctors, hdeclared, hadded⟩ := c.ctorsOf_eq_append s
    (Token.locationOf (c.token? (ClassHead.ofBody c.tokens body).name))
  refine ⟨_, _, declared, added, hrecord, hctors, hdeclared, hadded, ?_, ?_, ?_⟩
  · show c.Finds s _ _ _ (((c.ctorsOf s _).find? (·.isMove)).filter (!·.isDeleted))
    rw [find?_ctorsOf_isMove]
    exact finds_of_find? rfl addsMove_eq_false_iff
  · show c.Finds s _ _ _ (((c.ctorsOf s _).find? (·.isCopy)).filter (!·.isDeleted))
    rw [find?_ctorsOf_isCopy]
    exact finds_of_find? rfl (addsCopy_eq_false_iff_movesObjects hkinds)
  · intro d hd huser
    rcases List.mem_append.mp (hctors ▸ hd) with hd | hd
    · obtain ⟨f, -, hf⟩ := exists_of_mem_forall₂ hdeclared hd
      exact hf.spec_ne_unevaluated huser
    · rw [hadded d hd] at huser
      cases huser

/-- The class `W` declares an assignment, two move constructors and a copy constructor. -/
def mixedScope : Scope where
  kind := .record
  className := "W"
  id := some "1"
  bodyStart := some 2
  functions := [
    { kind := .assignment, nameToken := some 33 },
    { kind := .moveConstructor, nameToken := some 3 },
    { kind := .moveConstructor, nameToken := some 12 },
    { kind := .copyConstructor, nameToken := some 22 }]

/-- `struct W { W(W&&) noexcept = delete; W(W&&, int = 0); W(const W&) = default;`
`W& operator=(W&&); };`, where the assignment is listed in front. -/
def mixedSample : Configuration where
  tokens := [
    { text := "struct" }, { text := "W" }, { text := "\x7b" },
    { text := "W" }, { text := "(" }, { text := "W" }, { text := "&&" }, { text := ")" },
    { text := "noexcept" }, { text := "=" }, { text := "delete" }, { text := ";" },
    { text := "W" }, { text := "(" }, { text := "W" }, { text := "&&" }, { text := "," },
    { text := "int" }, { text := "=" }, { text := "0" }, { text := ")" }, { text := ";" },
    { text := "W" }, { text := "(" }, { text := "const" }, { text := "W" }, { text := "&" },
    { text := ")" }, { text := "=" }, { text := "default" }, { text := ";" },
    { text := "W" }, { text := "&" }, { text := "operator" }, { text := "=" }, { text := "(" },
    { text := "W" }, { text := "&&" }, { text := ")" }, { text := ";" }, { text := "\x7d" },
    { text := ";" }]
  scopes := [mixedScope]

/-- The first move constructor is deleted, so there is none although another one follows; the copy
constructor is declared, so the move assignment does not matter. -/
theorem recordWithin_specialMembers_sample :
    mixedSample.scope? 0 = some mixedScope ∧ mixedScope.bodyStart = some 2 ∧
      mixedScope.AssignmentsUnmarked ∧ mixedSample.Due 0 [] [] ∧
      ∃ r memo' declared added,
        mixedSample.recordWithin 2 [] 0 [] = (.complete r, memo') ∧
          r.ctors = declared ++ added ∧
          List.Forall₂ (mixedSample.Declares mixedScope)
            (mixedScope.functions.filter (·.kind.isConstructor)) declared ∧
          (∀ d ∈ added, d = impliedCtor "W" {} d.isMove) ∧
          mixedSample.Finds mixedScope .moveConstructor HindersMove (impliedCtor "W" {} true)
            r.moveCtor? ∧
          mixedSample.Finds mixedScope .copyConstructor mixedSample.MovesObjects
            (impliedCtor "W" {} false) r.copyCtor? ∧
          (∀ d ∈ r.ctors, d.isUserProvided = true → d.spec ≠ .unevaluated) ∧
          r.moveCtor? = none ∧
          r.copyCtor? = some
            { name := "W", isCopy := true, isDefaulted := true, spec := .unevaluated } := by
  have hkinds : mixedScope.AssignmentsUnmarked := by
    intro f hf
    revert f
    decide
  have hdue : mixedSample.Due 0 [] [] := ⟨rfl, List.not_mem_nil⟩
  obtain ⟨r, memo', declared, added, hrecord, hctors, hdeclared, hadded, hmove, hcopy, huser⟩ :=
    recordWithin_specialMembers (c := mixedSample) (i := 0) (s := mixedScope) rfl rfl hkinds hdue 1
  have hread : (mixedSample.recordWithin 2 [] 0 []).1.definition.map
      (fun r => (r.moveCtor?, r.copyCtor?)) =
        some (none, some
          { name := "W", isCopy := true, isDefaulted := true, spec := .unevaluated }) := by
    decide +kernel
  rw [hrecord] at hread
  obtain ⟨hnone, hsome⟩ := Prod.mk.inj (Option.some.inj hread)
  exact ⟨rfl, rfl, hkinds, hdue, r, memo', declared, added, hrecord, hctors, hdeclared, hadded,
    hmove, hcopy, huser, hnone, hsome⟩

end Configuration

end GrowthAudit
