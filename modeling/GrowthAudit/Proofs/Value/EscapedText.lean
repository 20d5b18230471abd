import GrowthAudit.Value.Json
import GrowthAudit.Value.JsonReader
import Mathlib.Data.List.Basic

/-!
# Escaped texts

A text between the quotes of a JSON document consists of printable ASCII characters, and reading it
gives the text back.  A character is written by its code units, of which there is one up to U+FFFF
and a pair of surrogates beyond.

* `Json.escapeChar_cases`: how a character is written.
* `JsonReader.codeUnits`: the code units of a character.
* `JsonReader.units?_escaped`: reading an escaped text gives the code units of its characters, up to
  the closing quote.
* `JsonReader.joinUnits_codeUnits`: the code units of characters give these characters.
* `JsonReader.text?_escaped`: so an escaped text reads back.
* `Json.printed_quoteChars`: it is printable ASCII.
-/

namespace GrowthAudit.Value

/-! ### How a character is written -/

namespace Json

/-- The printable ASCII characters, the space among them. -/
def Printed (c : Char) : Prop := 0x20 ≤ c.toNat ∧ c.toNat ≤ 0x7E

instance (c : Char) : Decidable (Printed c) := inferInstanceAs (Decidable (_ ∧ _))

/-- A character is written by an escape of two characters, by itself, or by the digits of one or two
code units. -/
theorem escapeChar_cases (c : Char) :
    (c.toNat < 0x80 ∧ ∃ d, Printed d ∧ JsonReader.shortEscape? d = some c.toNat ∧
        escapeChar c = ['\\', d]) ∨
      (Printed c ∧ c ≠ '\x22' ∧ c ≠ '\\' ∧ escapeChar c = [c]) ∨
      (c.toNat < 0x10000 ∧ escapeChar c = unitEscape c.toNat) ∨
      (0x10000 ≤ c.toNat ∧ escapeChar c =
        unitEscape (0xD800 + (c.toNat - 0x10000) / 0x400) ++
          unitEscape (0xDC00 + (c.toNat - 0x10000) % 0x400)) := by
  by_cases hshort : c ∈ ['\x22', '\\', '\n', '\r', '\t', '\x08', '\x0c']
  · left
    simp only [List.mem_cons, List.not_mem_nil, or_false] at hshort
    rcases hshort with rfl | rfl | rfl | rfl | rfl | rfl | rfl
    all_goals exact ⟨by decide, _, by decide, rfl, rfl⟩
  · right
    simp only [List.mem_cons, List.not_mem_nil, or_false, not_or] at hshort
    obtain ⟨hquote, hslash, hnewline, hreturn, htab, hback, hfeed⟩ := hshort
    rw [escapeChar, if_neg hquote, if_neg hslash, if_neg hnewline, if_neg hreturn, if_neg htab,
      if_neg hback, if_neg hfeed]
    by_cases hprinted : 0x20 ≤ c.toNat ∧ c.toNat ≤ 0x7E
    · exact .inl ⟨hprinted, hquote, hslash, if_pos hprinted⟩
    · rw [if_neg hprinted]
      by_cases hlow : c.toNat < 0x10000
      · exact .inr (.inl ⟨hlow, if_pos hlow⟩)
      · exact .inr (.inr ⟨by omega, if_neg hlow⟩)

end Json

open Json

namespace JsonReader

/-- The code units of a character: its code point, or two surrogates. -/
def codeUnits (c : Char) : List Nat :=
  if c.toNat < 0x10000 then [c.toNat]
  else [0xD800 + (c.toNat - 0x10000) / 0x400, 0xDC00 + (c.toNat - 0x10000) % 0x400]

theorem codeUnits_of_lt {c : Char} (h : c.toNat < 0x10000) : codeUnits c = [c.toNat] := if_pos h

/-- A code point is no surrogate and lies below U+110000. -/
theorem toNat_valid (c : Char) : c.toNat < 0xD800 ∨ 0xDFFF < c.toNat ∧ c.toNat < 0x110000 := c.valid

/-! ### From escapes to code units -/

/-- An escape by four digits stands for one code unit. -/
theorem units?_unitEscape {u : Nat} (hu : u < 0x10000) (rest : List Char) :
    units? (unitEscape u ++ rest) = (units? rest).map fun p => (u :: p.1, p.2) := by
  obtain ⟨a, b, c, d, hcode⟩ : ∃ a b c d, Text.hexCode 4 u = [a, b, c, d] := ⟨_, _, _, _, rfl⟩
  have hread : Text.readHex? [a, b, c, d] = some u := hcode ▸ Text.readHex?_hexCode 4 u hu
  rw [unitEscape, hcode]
  show units? ('\\' :: 'u' :: a :: b :: c :: d :: rest) = _
  rw [units?, hread]
  cases units? rest <;> rfl

/-- An escape of two characters stands for the code that its character means. -/
theorem units?_shortEscape {c : Char} {n : Nat} (hn : shortEscape? c = some n) (rest : List Char) :
    units? ('\\' :: c :: rest) = (units? rest).map fun p => (n :: p.1, p.2) := by
  rw [units?, hn]
  · cases units? rest <;> rfl
  · rintro a b c' d rest' rfl
    cases hn

/-- Any other character stands for itself. -/
theorem units?_plain {c : Char} (hquote : c ≠ '\x22') (hslash : c ≠ '\\') (hcode : 0x20 ≤ c.toNat)
    (rest : List Char) :
    units? (c :: rest) = (units? rest).map fun p => (c.toNat :: p.1, p.2) := by
  rw [units?]
  · rw [if_neg (by omega)]
    cases units? rest <;> rfl
  · exact hquote
  · intro _ _ _ _ _ h
    exact absurd h hslash
  · intro _ _ h
    exact absurd h hslash

theorem units?_escapeChar (c : Char) (rest : List Char) :
    units? (escapeChar c ++ rest) = (units? rest).map fun p => (codeUnits c ++ p.1, p.2) := by
  have hvalid := toNat_valid c
  obtain ⟨hascii, d, -, hd, h⟩ | ⟨hprinted, hquote, hslash, h⟩ | ⟨hlow, h⟩ | ⟨hhigh, h⟩ :=
    escapeChar_cases c
  · rw [h, codeUnits_of_lt (by omega)]
    exact units?_shortEscape hd rest
  · rw [h, codeUnits_of_lt (by have := hprinted.2; omega)]
    exact units?_plain hquote hslash hprinted.1 rest
  · rw [h, codeUnits_of_lt hlow]
    exact units?_unitEscape hlow rest
  · rw [h, List.append_assoc, units?_unitEscape (by omega), units?_unitEscape (by omega), codeUnits,
      if_neg (by omega), Option.map_map]
    rfl

/-- **Reading an escaped text** gives the code units of its characters, up to the closing quote. -/
theorem units?_escaped (cs rest : List Char) :
    units? (cs.flatMap escapeChar ++ '\x22' :: rest) = some (cs.flatMap codeUnits, rest) := by
  induction cs with
  | nil => rfl
  | cons c cs ih =>
    rw [List.flatMap_cons, List.append_assoc, units?_escapeChar, ih, List.flatMap_cons,
      Option.map_some]

/-! ### From code units to characters -/

theorem joinUnits_cons {n : Nat} (h : ¬ (0xD800 ≤ n ∧ n < 0xE000)) (rest : List Nat) :
    joinUnits (n :: rest) = Char.ofNat n :: joinUnits rest := by
  cases rest with
  | nil => simp only [joinUnits, if_neg h]
  | cons m rest =>
    rw [joinUnits, if_neg h, if_neg]
    rintro ⟨hlow, hhigh, -⟩
    exact h ⟨hlow, by omega⟩

theorem joinUnits_codeUnits_append (c : Char) (rest : List Nat) :
    joinUnits (codeUnits c ++ rest) = c :: joinUnits rest := by
  have hvalid := toNat_valid c
  by_cases hshort : c.toNat < 0x10000
  · rw [codeUnits_of_lt hshort, List.singleton_append, joinUnits_cons (by omega), Char.ofNat_toNat]
  · -- the two halves are put together again
    have hcode : 0x10000 + (0xD800 + (c.toNat - 0x10000) / 0x400 - 0xD800) * 0x400 +
        (0xDC00 + (c.toNat - 0x10000) % 0x400 - 0xDC00) = c.toNat := by omega
    rw [codeUnits, if_neg hshort, List.cons_append, List.singleton_append, joinUnits,
      if_pos (by omega), hcode, Char.ofNat_toNat]

theorem joinUnits_codeUnits (cs : List Char) : joinUnits (cs.flatMap codeUnits) = cs := by
  induction cs with
  | nil => rfl
  | cons c cs ih => rw [List.flatMap_cons, joinUnits_codeUnits_append, ih]

/-- **An escaped text reads back.** -/
theorem text?_escaped (cs rest : List Char) :
    text? (cs.flatMap escapeChar ++ '\x22' :: rest) = some (String.ofList cs, rest) := by
  rw [text?, units?_escaped, Option.bind_eq_bind, Option.bind_some]
  show some (String.ofList (joinUnits (cs.flatMap codeUnits)), rest) = _
  rw [joinUnits_codeUnits]

end JsonReader

/-! ### Printable ASCII -/

namespace Json

/-- Whether a text is printable can be computed. -/
theorem printed_of_all {cs : List Char} (h : cs.all (decide <| Printed ·) = true) :
    ∀ c ∈ cs, Printed c :=
  fun c hc => of_decide_eq_true (List.all_eq_true.mp h c hc)

theorem printed_hexDigit {d : Nat} (h : d < 16) : Printed (Text.hexDigit d) := by
  have : ∀ d : Fin 16, Printed (Text.hexDigit d) := by decide
  exact this ⟨d, h⟩

theorem printed_hexCode (width n : Nat) : ∀ c ∈ Text.hexCode width n, Printed c := by
  induction width generalizing n with
  | zero => exact fun c hc => absurd hc List.not_mem_nil
  | succ width ih =>
    rw [Text.hexCode, List.forall_mem_append, List.forall_mem_singleton]
    exact ⟨ih _, printed_hexDigit (Nat.mod_lt n (by decide))⟩

theorem printed_unitEscape (u : Nat) : ∀ c ∈ unitEscape u, Printed c := by
  rw [unitEscape, List.forall_mem_cons, List.forall_mem_cons]
  exact ⟨by decide, by decide, printed_hexCode 4 u⟩

theorem printed_escapeChar (c : Char) : ∀ d ∈ escapeChar c, Printed d := by
  obtain ⟨-, d, hd, -, h⟩ | ⟨hprinted, -, -, h⟩ | ⟨-, h⟩ | ⟨-, h⟩ := escapeChar_cases c
  · rw [h, List.forall_mem_cons, List.forall_mem_singleton]
    exact ⟨by decide, hd⟩
  · rw [h, List.forall_mem_singleton]
    exact hprinted
  · rw [h]
    exact printed_unitEscape _
  · rw [h, List.forall_mem_append]
    exact ⟨printed_unitEscape _, printed_unitEscape _⟩

theorem printed_quoteChars (cs : List Char) : ∀ c ∈ quoteChars cs, Printed c := by
  rw [quoteChars, List.forall_mem_cons, List.forall_mem_append, List.forall_mem_singleton]
  refine ⟨by decide, fun d hd => ?_, by decide⟩
  obtain ⟨c, -, hd⟩ := List.mem_flatMap.mp hd
  exact printed_escapeChar c d hd

end Json

end GrowthAudit.Value
