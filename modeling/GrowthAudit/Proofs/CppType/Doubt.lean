import GrowthAudit.Proofs.CppType.SubObjects

/-!
# Types in doubt

A record is trivially copyable only if its sub-objects are, and a sub-object whose definition is
hidden is not.  So whoever hides a definition takes away more than what it says: every record around
it stops being trivially copyable.  `CppType.doubted` takes this away everywhere at once: a record
stays trivially copyable only if no sub-object has a definition that could be hidden.

Everything else stays as it is, constructors and sub-objects included (`Record.ctors_doubted`,
`Record.subObjects_doubted`), and so do definitions (`CppType.definition_doubted`).
-/

namespace GrowthAudit

/-- Some sub-object has a definition. -/
def Record.hasDefinition (r : Record CppType) : Bool := r.subObjects.any (·.1.definition.isSome)

namespace CppType

mutual

/-- The type with no record in it that is trivially copyable because of a definition inside. -/
def doubted : CppType → CppType
  | mk name kind definition => mk name kind (doubtedOption definition)

def doubtedOption : Option (Record CppType) → Option (Record CppType)
  | none => none
  | some r => some (doubtedRecord r)

def doubtedRecord : Record CppType → Record CppType
  | ⟨name, site, ctors, fields, bases, isTrivial⟩ =>
    { name
      site
      ctors
      fields := doubtedFields fields
      bases := doubtedBases bases
      isTrivial := isTrivial && !(Record.mk name site ctors fields bases isTrivial).hasDefinition }

def doubtedFields : List (Field CppType) → List (Field CppType)
  | [] => []
  | f :: fs => doubtedField f :: doubtedFields fs

def doubtedField : Field CppType → Field CppType
  | ⟨name, type, isOwn, location, isConst⟩ => ⟨name, type.doubted, isOwn, location, isConst⟩

def doubtedBases : List (Base CppType) → List (Base CppType)
  | [] => []
  | b :: bs => doubtedBase b :: doubtedBases bs

def doubtedBase : Base CppType → Base CppType
  | ⟨type, isVirtual, location⟩ => ⟨type.doubted, isVirtual, location⟩

end

theorem doubtedFields_eq (fs : List (Field CppType)) : doubtedFields fs = fs.map doubtedField := by
  induction fs with
  | nil => rw [doubtedFields, List.map_nil]
  | cons f fs ih => rw [doubtedFields, ih, List.map_cons]

theorem doubtedBases_eq (bs : List (Base CppType)) : doubtedBases bs = bs.map doubtedBase := by
  induction bs with
  | nil => rw [doubtedBases, List.map_nil]
  | cons b bs ih => rw [doubtedBases, ih, List.map_cons]

end CppType

/-- The record with its sub-objects in doubt. -/
def Record.doubted (r : Record CppType) : Record CppType := CppType.doubtedRecord r

namespace Record

variable (r : Record CppType)

theorem name_doubted : r.doubted.name = r.name := by
  obtain ⟨name, site, ctors, fields, bases, isTrivial⟩ := r
  rw [doubted, CppType.doubtedRecord]

theorem ctors_doubted : r.doubted.ctors = r.ctors := by
  obtain ⟨name, site, ctors, fields, bases, isTrivial⟩ := r
  rw [doubted, CppType.doubtedRecord]

theorem isTrivial_doubted : r.doubted.isTrivial = (r.isTrivial && !r.hasDefinition) := by
  obtain ⟨name, site, ctors, fields, bases, isTrivial⟩ := r
  rw [doubted, CppType.doubtedRecord]

theorem subObjects_doubted :
    r.doubted.subObjects = r.subObjects.map fun s => (s.1.doubted, s.2) := by
  obtain ⟨name, site, ctors, fields, bases, isTrivial⟩ := r
  have hbases : (bases.map CppType.doubtedBase).map (fun b => (b.type, false)) =
      (bases.map fun b => (b.type, false)).map fun s => (s.1.doubted, s.2) := by
    rw [List.map_map, List.map_map]
    refine List.map_congr_left fun b _ => ?_
    rw [Function.comp_apply, CppType.doubtedBase]
    rfl
  have hfields : (((fields.map CppType.doubtedField).filter (·.isOwn)).map
      fun f => (f.type, f.isConst)) =
      ((fields.filter (·.isOwn)).map fun f => (f.type, f.isConst)).map
        fun s => (s.1.doubted, s.2) := by
    rw [List.filter_map, List.map_map, List.map_map]
    have hown : (fun f : Field CppType => f.isOwn) ∘ CppType.doubtedField = (·.isOwn) := by
      funext f
      rw [Function.comp_apply, CppType.doubtedField]
    rw [hown]
    refine List.map_congr_left fun f _ => ?_
    rw [Function.comp_apply, CppType.doubtedField]
    rfl
  rw [doubted, CppType.doubtedRecord, subObjects, subObjects, CppType.doubtedFields_eq,
    CppType.doubtedBases_eq, List.map_append]
  exact congrArg₂ (· ++ ·) hbases hfields

end Record

namespace CppType

theorem isScalar_doubted (t : CppType) : t.doubted.isScalar = t.isScalar := by
  obtain ⟨name, kind, definition⟩ := t
  rw [doubted]
  rfl

theorem definition_doubted (t : CppType) : t.doubted.definition = t.definition.map (·.doubted) := by
  obtain ⟨name, kind, definition⟩ := t
  rw [doubted]
  cases definition with
  | none => exact doubtedOption.eq_1
  | some r => exact doubtedOption.eq_2 r

theorem doubted_complete (r : Record CppType) : (complete r).doubted = .complete r.doubted := by
  rw [complete, complete, doubted, doubtedOption, Record.name_doubted]
  rfl

end CppType

/-! ### What speaks against a record -/

/-- The record is not trivially copyable, and the constructor throws, if there is one. -/
def Record.Against (r : Record CppType) (ctor : Option Ctor) : Prop :=
  r.isTrivial = false ∧ ∀ c, ctor = some c → c.throwing (some r) = .yes

theorem Record.degrades_iff_against {r : Record CppType} :
    (CppType.complete r).degrades = true ↔ r.Against r.moveCtor? := by
  rw [CppType.degrades_iff]
  constructor
  · rintro ⟨htriv, _, hr, h⟩
    obtain rfl := Option.some.inj hr
    exact ⟨htriv, h⟩
  · rintro ⟨htriv, h⟩
    exact ⟨htriv, r, rfl, h⟩

theorem Record.contribution_iff_against {r : Record CppType} {moving : Bool} :
    (CppType.complete r).contribution moving = .yes ↔
      ∃ c, r.transferCtor? moving = some c ∧ r.Against (some c) := by
  rw [CppType.contribution_eq_yes_iff]
  constructor
  · rintro ⟨htriv, _, hr, c, hc, hyes⟩
    obtain rfl := Option.some.inj hr
    exact ⟨c, hc, htriv, fun _ h => Option.some.inj h ▸ hyes⟩
  · rintro ⟨c, hc, htriv, hyes⟩
    exact ⟨htriv, r, rfl, c, hc, hyes c rfl⟩

end GrowthAudit
