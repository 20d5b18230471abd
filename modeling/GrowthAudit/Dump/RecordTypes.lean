import GrowthAudit.Dump.ClassHead
import GrowthAudit.Dump.Resolution
import GrowthAudit.Dump.SpecialMembers

/-!
# Record types

The type of a record scope.  `Configuration.outline?` reads the definition off the configuration,
with the types of bases and members resolved but not built; `Configuration.recordWithin` builds
these in turn.  Complete types are remembered under the key of their scope.  A record that contains
itself cannot be built: where it is met inside its own definition it is incomplete.

The path holds the keys of the definitions that are being built, which are all different.  So there
are at most as many as there are scopes, and the number of levels that are left to go into never
runs out.
-/

namespace GrowthAudit

/-- The types that are complete, under the keys of their scopes. -/
abbrev Memo := List (ScopeKey × CppType)

/-- Goes through a list and hands on what is remembered. -/
def Memo.traverse (f : α → Memo → β × Memo) : List α → Memo → List β × Memo
  | [], memo => ([], memo)
  | a :: as, memo =>
    let (b, memo) := f a memo
    let (bs, memo) := Memo.traverse f as memo
    (b :: bs, memo)

def Field.withType (f : Field τ) (type : σ) : Field σ :=
  ⟨f.name, type, f.isOwn, f.location, f.isConst⟩

def Base.withType (b : Base τ) (type : σ) : Base σ := ⟨type, b.isVirtual, b.location⟩

namespace Configuration

def outlineBase (c : Configuration) (b : BaseClause) : Base Resolution :=
  ⟨c.lookupTokens b.name, b.isVirtual, Token.locationOf b.name.head?⟩

def outlineField (c : Configuration) (v : Variable) : Field Resolution :=
  let name := Token.textOf (c.token? v.nameToken)
  { name := if name = "" then "?" else name
    type := c.lookupVariable v
    isOwn := !v.isStatic
    location := Token.locationOf (c.token? v.nameToken)
    isConst := c.isConstMember v }

/-- The definition of a record, with types resolved but not built; `none` without a body.  Whether
it is trivially copyable is answered for its functions alone. -/
def outline? (c : Configuration) (i : Nat) : Option (Record Resolution) :=
  (c.scope? i).bind fun s =>
    s.bodyStart.map fun body =>
      let head := ClassHead.ofBody c.tokens body
      { name := c.qualifiedName i
        site := Token.locationOf (c.token? (head.name.or (some body)))
        ctors := c.ctorsOf s (Token.locationOf (c.token? head.name))
        fields := s.members.map c.outlineField
        bases := (BaseClause.ofTokens head.bases).map c.outlineBase
        isTrivial := c.functionsAreTrivial s }

theorem outline?_eq_some_iff {c : Configuration} {i : Nat} {o : Record Resolution} :
    c.outline? i = some o ↔ ∃ s body, c.scope? i = some s ∧ s.bodyStart = some body ∧
      o =
        { name := c.qualifiedName i
          site := Token.locationOf
            (c.token? ((ClassHead.ofBody c.tokens body).name.or (some body)))
          ctors := c.ctorsOf s
            (Token.locationOf (c.token? (ClassHead.ofBody c.tokens body).name))
          fields := s.members.map c.outlineField
          bases := (BaseClause.ofTokens (ClassHead.ofBody c.tokens body).bases).map c.outlineBase
          isTrivial := c.functionsAreTrivial s } := by
  simp only [outline?, Option.bind_eq_some_iff, Option.map_eq_some_iff]
  constructor
  · rintro ⟨s, hs, body, hbody, rfl⟩
    exact ⟨s, body, hs, hbody, rfl⟩
  · rintro ⟨s, body, hs, hbody, rfl⟩
    exact ⟨s, hs, body, hbody, rfl⟩

end Configuration

namespace Record

/-- A record is trivially copyable if its functions allow it, no base is virtual, and every base and
own data member is trivially copyable. -/
def partsAreTrivial (bases : List (Base CppType)) (fields : List (Field CppType)) : Bool :=
  bases.all (fun b => !b.isVirtual && b.type.isTrivial) &&
    fields.all (fun f => !f.isOwn || f.type.isTrivial)

/-- The definition whose bases and members have the given types. -/
def ofOutline (o : Record Resolution) (bases : List (Base CppType))
    (fields : List (Field CppType)) : Record CppType :=
  { name := o.name
    site := o.site
    ctors := o.ctors
    fields
    bases
    isTrivial := o.isTrivial && partsAreTrivial bases fields }

end Record

namespace Configuration

/-- The type of a record scope, inside the definitions on the path. -/
def recordWithin (c : Configuration) :
    (levels : Nat) → (path : List ScopeKey) → Nat → Memo → CppType × Memo
  | 0, _, i, memo => (.incomplete (c.qualifiedName i), memo)
  | levels + 1, path, i, memo =>
    match memo.lookup (c.keyOf i) with
    | some type => (type, memo)
    | none =>
      if path.contains (c.keyOf i) then (.incomplete (c.qualifiedName i), memo)
      else
        match c.outline? i with
        | none => (.incomplete (c.qualifiedName i), memo)
        | some o =>
          let build (r : Resolution) (memo : Memo) : CppType × Memo :=
            match r with
            | .known type => (type, memo)
            | .record j => c.recordWithin levels (c.keyOf i :: path) j memo
          let (bases, memo) := Memo.traverse
            (fun b memo => let (type, memo) := build b.type memo; (b.withType type, memo))
            o.bases memo
          let (fields, memo) := Memo.traverse
            (fun f memo => let (type, memo) := build f.type memo; (f.withType type, memo))
            o.fields memo
          let type := CppType.complete (.ofOutline o bases fields)
          (type, (c.keyOf i, type) :: memo)

/-- The type of a record scope. -/
def recordType (c : Configuration) (i : Nat) (memo : Memo) : CppType × Memo :=
  c.recordWithin (c.scopes.length + 1) [] i memo

/-- The type that a resolution means. -/
def typeOf (c : Configuration) (r : Resolution) (memo : Memo) : CppType × Memo :=
  match r with
  | .known type => (type, memo)
  | .record i => c.recordType i memo

end Configuration

end GrowthAudit
