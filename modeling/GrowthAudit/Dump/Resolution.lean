import GrowthAudit.CppType.Basic
import GrowthAudit.Dump.ScopeNames

/-!
# Resolution of types

What a name, a row of tokens or a declared variable means: either a type that is known at once, or
the record whose definition is the body of a scope.  A name that nothing defines is that of an
incomplete record.  Resolution looks at the configuration alone; what a record is made of is built
elsewhere.
-/

namespace GrowthAudit

inductive Resolution where
  | known (type : CppType)
  | record (scope : Nat)
  deriving Inhabited

namespace Token

/-- Qualifiers, storage classes and the keywords of elaborated names, which do not change what type
is meant. -/
def isQualifier (t : Token) : Bool :=
  t.isOneOf ["const", "volatile", "mutable", "static", "struct", "class", "union", "enum",
    "typename"]

def builtinNames : List String :=
  ["bool", "char", "char8_t", "char16_t", "char32_t", "wchar_t",
   "short", "int", "long", "signed", "unsigned", "float", "double", "void",
   "size_t", "ssize_t", "ptrdiff_t", "intptr_t", "uintptr_t",
   "int8_t", "int16_t", "int32_t", "int64_t",
   "uint8_t", "uint16_t", "uint32_t", "uint64_t",
   "nullptr_t", "byte"]

/-- Whether tokens spell a builtin type, which may be qualified by the standard namespace. -/
def spellBuiltin (ts : List Token) : Bool :=
  let names := ts.filter (!·.isOneOf ["::", "std"])
  !names.isEmpty && names.all (·.isOneOf builtinNames)

end Token

/-- The kinds of values that are arithmetic. -/
def ValueType.isArithmetic (v : ValueType) : Bool :=
  ["bool", "char", "short", "wchar_t", "int", "long", "long long", "unknown int", "float", "double",
    "long double"].contains v.type

namespace Configuration

/-- What a spelled name means. -/
def lookupName (c : Configuration) (name : String) : Resolution :=
  if c.isEnumeration name then .known (.enumeration name)
  else
    match c.findRecord? name with
    | some i => .record i
    | none => .known (.incomplete name)

/-- What a scope that a token points to means, together with the name that is spelled. -/
def lookupScope (c : Configuration) (i : Nat) (name : String) : Resolution :=
  match c.kindOf i with
  | .enumeration => .known (.enumeration (if name = "" then c.qualifiedName i else name))
  | .record => .record i
  | _ => c.lookupName name

/-- What tokens that spell a type mean.  A scope that belongs to a template argument is that of the
argument and not of the type. -/
def lookupTokens (c : Configuration) (tokens : List Token) : Resolution :=
  let ts := tokens.filter (!·.isQualifier)
  let outer := Token.topLevel ts
  let name := Token.spelling (ts.filter (!·.isIndirection))
  if outer.any (·.isIndirection) then .known (.pointer (Token.spelling ts))
  else if Token.spellBuiltin ts then .known (.builtin (" ".intercalate (ts.map (·.text))))
  else
    match outer.reverse.findSome? (·.scope) with
    | some i => c.lookupScope i name
    | none => c.lookupName name

/-- The tokens of the type of a variable. -/
def typeTokens (c : Configuration) (v : Variable) : List Token :=
  Token.through c.tokens v.typeStart v.typeEnd

/-- What the value type of a variable's name means, where that settles the type: containers and
smart pointers carry the scope of their element, so only records and enumerations count. -/
def lookupValueType? (c : Configuration) (v : Variable) (vt : ValueType) : Option Resolution :=
  if vt.pointers ≠ 0 then none
  else
    match vt.scope.filter fun i => vt.type == "record" || c.kindOf i == .enumeration with
    | some i =>
      some (c.lookupScope i (Token.spelling ((c.typeTokens v).filter (!·.isQualifier))))
    | none => if vt.isArithmetic then some (.known (.builtin vt.type)) else none

/-- What the declaration of a variable means; an array means its element. -/
def lookupVariable (c : Configuration) (v : Variable) : Resolution :=
  if v.isPointer || v.isReference then
    let name := Token.spelling (c.typeTokens v)
    .known (.pointer (if name = "" then "?" else name))
  else
    match ((c.token? v.nameToken).bind (·.valueType)).bind (c.lookupValueType? v) with
    | some r => r
    | none => c.lookupTokens (c.typeTokens v)

/-- Whether a member is constant itself, and not only what it points to. -/
def isConstMember (c : Configuration) (v : Variable) : Bool :=
  let outer := Token.topLevel (c.typeTokens v)
  if outer.any (·.isIndirection) then Token.textOf outer.getLast? == "const"
  else outer.any (·.text == "const")

end Configuration

end GrowthAudit
