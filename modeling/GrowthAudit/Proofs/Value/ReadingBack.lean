import GrowthAudit.Proofs.Value.EscapedText
import Mathlib.Data.List.Basic

/-!
# Values that read back

A value that holds no doubles, no key of a table twice and no integer that is too long to be
converted is read back exactly from its JSON text.  The reader has a bound on its calls, and the
length of the text is always enough.

* `Value.Doubleless`, `Value.Discrete`: the values without doubles, and those that read back.
* `JsonReader.Delimited`: what may follow a value in a document.
* `JsonReader.value?_int`, `JsonReader.value?_str`: integers and texts read back.
* `JsonReader.Reads`: what is to be read within a bound.  `JsonReader.reads` shows it for every
  bound, by induction, with one lemma for each of the three readers.
* `Value.ofJson?_toJson`: a discrete value reads back.
* `Json.printed_chars`: the text of a value without doubles is printable ASCII.
-/

namespace GrowthAudit.Value

/-- A value without doubles. -/
inductive Doubleless : Value → Prop
  | null : Doubleless .null
  | bool (b : Bool) : Doubleless (.bool b)
  | int (n : Int) : Doubleless (.int n)
  | str (s : String) : Doubleless (.str s)
  | list {items : List Value} : (∀ v ∈ items, Doubleless v) → Doubleless (.list items)
  | table {entries : List (String × Value)} : (∀ e ∈ entries, Doubleless e.2) →
      Doubleless (.table entries)

/-- A value without doubles in which all integers can be converted and no table has a key twice. -/
inductive Discrete : Value → Prop
  | null : Discrete .null
  | bool (b : Bool) : Discrete (.bool b)
  | int {n : Int} : Text.IsConvertible n → Discrete (.int n)
  | str (s : String) : Discrete (.str s)
  | list {items : List Value} : (∀ v ∈ items, Discrete v) → Discrete (.list items)
  | table {entries : List (String × Value)} : (entries.map Prod.fst).Nodup →
      (∀ e ∈ entries, Discrete e.2) → Discrete (.table entries)

open Json

namespace JsonReader

/-- What follows a value in a document: nothing, a comma, or a closing bracket. -/
def Delimited (rest : List Char) : Prop := ∀ c ∈ rest.head?, c = ',' ∨ c = ']' ∨ c = '\x7d'

theorem Delimited.cases {rest : List Char} (h : Delimited rest) :
    rest = [] ∨ ∃ c tail, rest = c :: tail ∧ (c = ',' ∨ c = ']' ∨ c = '\x7d') := by
  cases rest with
  | nil => exact .inl rfl
  | cons c tail => exact .inr ⟨c, tail, rfl, h c rfl⟩

theorem delimited_cons {c : Char} (h : c = ',' ∨ c = ']' ∨ c = '\x7d') (tail : List Char) :
    Delimited (c :: tail) := by
  intro d hd
  obtain rfl := Option.mem_some.mp hd
  exact h

/-! ### Integers -/

theorem ne_of_isDigit {c d : Char} (hc : isDigit c = true) (hd : isDigit d = false) : c ≠ d := by
  rintro rfl
  rw [hc] at hd
  cases hd

theorem isSpace_of_isDigit {c : Char} (hc : isDigit c = true) : isSpace c = false := by
  simp only [isSpace, Bool.or_eq_false_iff, beq_eq_false_iff_ne]
  exact ⟨⟨⟨ne_of_isDigit hc rfl, ne_of_isDigit hc rfl⟩, ne_of_isDigit hc rfl⟩,
    ne_of_isDigit hc rfl⟩

theorem isDigit_of_mem_toDigits {c : Char} {n : Nat} (h : c ∈ Nat.toDigits 10 n) :
    isDigit c = true := by
  have hdigit := Nat.isDigit_of_mem_toDigits (by decide) (by decide) h
  rw [isDigit]
  exact hdigit

theorem exists_cons_toDigits (n : Nat) :
    ∃ c ds, Nat.toDigits 10 n = c :: ds ∧ isDigit c = true := by
  obtain ⟨c, ds, hds⟩ := List.exists_cons_of_ne_nil (Nat.toDigits_ne_nil (n := n) (b := 10))
  exact ⟨c, ds, hds, isDigit_of_mem_toDigits (hds ▸ List.mem_cons_self)⟩

/-- No number but zero is written with a zero in front. -/
theorem head?_toDigits {n : Nat} (h : n ≠ 0) : (Nat.toDigits 10 n).head? ≠ some '0' := by
  induction n using Nat.strongRecOn with
  | ind n ih =>
    rw [Nat.toDigits_eq_if (by decide)]
    split
    · next hlt => simpa using h
    · next hle =>
      rw [List.head?_append_of_ne_nil _ Nat.toDigits_ne_nil]
      exact ih (n / 10) (by omega) (by omega)

section

variable {rest : List Char} (hrest : Delimited rest)

include hrest

theorem takeWhile_isDigit : rest.takeWhile isDigit = [] := by
  obtain rfl | ⟨c, tail, rfl, rfl | rfl | rfl⟩ := hrest.cases <;> rfl

theorem fraction_eq : fraction rest = ([], rest) := by
  obtain rfl | ⟨c, tail, rfl, rfl | rfl | rfl⟩ := hrest.cases <;> rfl

theorem exponent_eq : exponent rest = (none, rest) := by
  obtain rfl | ⟨c, tail, rfl, rfl | rfl | rfl⟩ := hrest.cases <;> rfl

/-- The digits in front of a number's end are all there is of it. -/
theorem whole_eq (n : Nat) :
    (if (Nat.toDigits 10 n ++ rest).head? = some '0' then ['0']
      else (Nat.toDigits 10 n ++ rest).takeWhile isDigit) = Nat.toDigits 10 n := by
  rw [List.head?_append_of_ne_nil _ Nat.toDigits_ne_nil]
  by_cases hn : n = 0
  · rw [hn, Nat.toDigits_zero]
    rfl
  · rw [if_neg (head?_toDigits hn),
      List.takeWhile_append_of_pos fun c hc => isDigit_of_mem_toDigits hc,
      takeWhile_isDigit hrest, List.append_nil]

theorem number?_neg {n : Nat} (hn : (Nat.toDigits 10 n).length ≤ Text.digitLimit) :
    number? ('-' :: (Nat.toDigits 10 n ++ rest)) = some (.int (-n), rest) := by
  have hvalue : digitsValue (Nat.toDigits 10 n) = n := Nat.ofDigitChars_ten_toDigits
  simp only [number?, whole_eq hrest, List.drop_left, fraction_eq hrest, exponent_eq hrest, hvalue,
    if_neg (Nat.not_lt_of_le hn)]
  rw [if_neg (by simp)]
  rfl

theorem number?_nat {n : Nat} (hn : (Nat.toDigits 10 n).length ≤ Text.digitLimit) :
    number? (Nat.toDigits 10 n ++ rest) = some (.int n, rest) := by
  have hvalue : digitsValue (Nat.toDigits 10 n) = n := Nat.ofDigitChars_ten_toDigits
  rw [number?]
  · simp only [whole_eq hrest, List.drop_left, fraction_eq hrest, exponent_eq hrest, hvalue,
      if_neg (Nat.not_lt_of_le hn)]
    rw [if_neg (by simp)]
    rfl
  · -- no digit is a minus sign
    intro tail h
    obtain ⟨c, ds, hds, hdigit⟩ := exists_cons_toDigits n
    rw [hds] at h
    exact ne_of_isDigit hdigit rfl (List.cons.inj h).1

end

/-! ### Where a value starts -/

theorem skip_cons {c : Char} (hc : isSpace c = false) (cs : List Char) :
    skip (c :: cs) = c :: cs :=
  List.dropWhile_cons_of_neg (by rw [hc]; decide)

theorem value?_space (bound : Nat) (cs : List Char) :
    value? bound (' ' :: cs) = value? bound cs := by
  cases bound with
  | zero => rfl
  | succ bound => rw [value?.eq_def, value?.eq_def]; rfl

/-- What starts with a digit, or with a minus sign and a digit, is read as a number. -/
theorem value?_number (bound : Nat) {sign : List Char} (hsign : sign = [] ∨ sign = ['-'])
    {c : Char} (hc : isDigit c = true) (cs : List Char) :
    value? (bound + 1) (sign ++ c :: cs) = number? (sign ++ c :: cs) := by
  have hstart : ∀ d tail, isDigit d = false → d ≠ '-' → sign ++ c :: cs ≠ d :: tail := by
    rintro d tail hd hminus h
    rcases hsign with rfl | rfl
    · exact ne_of_isDigit hc hd (List.cons.inj h).1
    · exact hminus (List.cons.inj h).1.symm
  have hskip : skip (sign ++ c :: cs) = sign ++ c :: cs := by
    rcases hsign with rfl | rfl
    · exact skip_cons (isSpace_of_isDigit hc) cs
    · rfl
  rw [value?.eq_def]
  simp only [hskip]
  split
  iterate 8
    next h => exact absurd h (hstart _ _ (by decide) (by decide))
  · next h =>
    -- what follows the minus sign is a digit
    rcases hsign with rfl | rfl
    · exact absurd (List.cons.inj h).1 (ne_of_isDigit hc rfl)
    · exact absurd (List.cons.inj (List.cons.inj h).2).1 (ne_of_isDigit hc rfl)
  · rfl

/-- The text of an integer: its digits, behind a minus sign if it is negative. -/
theorem chars_int (n : Int) : ∃ m : Nat, (n = m ∧ chars (.int n) = Nat.toDigits 10 m) ∨
    (n = -m ∧ chars (.int n) = '-' :: Nat.toDigits 10 m) := by
  have htext : ∀ m : Nat, m.repr.toList = Nat.toDigits 10 m := fun m => Nat.toList_repr
  rw [chars]
  cases n with
  | ofNat m => exact ⟨m, .inl ⟨rfl, htext m⟩⟩
  | negSucc m =>
    refine ⟨m + 1, .inr ⟨rfl, ?_⟩⟩
    show ("-" ++ (m + 1).repr).toList = _
    rw [String.toList_append, htext]
    rfl

/-- No value starts with white space or with the end of a list. -/
theorem exists_cons_chars {v : Value} (hv : v.Discrete) :
    ∃ c cs, chars v = c :: cs ∧ isSpace c = false ∧ c ≠ ']' := by
  cases hv with
  | null => exact ⟨_, _, rfl, rfl, by decide⟩
  | bool b => cases b <;> exact ⟨_, _, rfl, rfl, by decide⟩
  | @int n _ =>
    obtain ⟨m, ⟨-, hm⟩ | ⟨-, hm⟩⟩ := chars_int n
    · obtain ⟨c, ds, hds, hc⟩ := exists_cons_toDigits m
      exact ⟨c, ds, hm.trans hds, isSpace_of_isDigit hc, ne_of_isDigit hc rfl⟩
    · exact ⟨_, _, hm, rfl, by decide⟩
  | str s =>
    exact ⟨'\x22', s.toList.flatMap escapeChar ++ ['\x22'], by rw [chars, quoteChars], rfl,
      by decide⟩
  | @list items =>
    exact ⟨'[', joined (itemChars items) ++ [']'], by rw [chars], rfl, by decide⟩
  | @table entries =>
    exact ⟨'\x7b', joined (entryChars entries) ++ ['\x7d'], by rw [chars], rfl, by decide⟩

theorem value?_int (bound : Nat) {n : Int} (hn : Text.IsConvertible n) {rest : List Char}
    (hrest : Delimited rest) :
    value? (bound + 1) (chars (.int n) ++ rest) = some (.int n, rest) := by
  obtain ⟨m, ⟨rfl, hm⟩ | ⟨rfl, hm⟩⟩ := chars_int n
  · rw [Text.IsConvertible, Int.natAbs_natCast] at hn
    obtain ⟨c, ds, hds, hc⟩ := exists_cons_toDigits m
    have hread := value?_number bound (.inl rfl) hc (ds ++ rest)
    rw [hm, ← number?_nat hrest hn, hds]
    exact hread
  · rw [Text.IsConvertible, Int.natAbs_neg, Int.natAbs_natCast] at hn
    obtain ⟨c, ds, hds, hc⟩ := exists_cons_toDigits m
    have hread := value?_number bound (.inr rfl) hc (ds ++ rest)
    rw [hm, List.cons_append, ← number?_neg hrest hn, hds]
    exact hread

theorem value?_str (bound : Nat) (s : String) (rest : List Char) :
    value? (bound + 1) (chars (.str s) ++ rest) = some (.str s, rest) := by
  rw [chars, quoteChars, List.cons_append, List.append_assoc, List.singleton_append, value?.eq_def]
  show (text? (s.toList.flatMap escapeChar ++ '\x22' :: rest)).map _ = _
  rw [text?_escaped, Option.map_some, String.ofList_toList]

/-! ### Lists and tables -/

/-- The first item of a joined text stands in front. -/
theorem joined_cons (item : List Char) (items : List (List Char)) :
    ∃ tail, joined (item :: items) = item ++ tail := by
  cases items with
  | nil => exact ⟨[], (List.append_nil item).symm⟩
  | cons next rest => exact ⟨',' :: ' ' :: joined (next :: rest), rfl⟩

/-- A list that is not empty is read item by item. -/
theorem value?_list (bound : Nat) {v : Value} (hv : v.Discrete) (vs : List Value)
    (rest : List Char) :
    value? (bound + 1) ('[' :: (joined (itemChars (v :: vs)) ++ rest)) =
      (items? bound (joined (itemChars (v :: vs)) ++ rest)).map fun p => (.list p.1, p.2) := by
  obtain ⟨c, cs, hcs, hspace, hend⟩ := exists_cons_chars hv
  obtain ⟨tail, htail⟩ := joined_cons (chars v) (itemChars vs)
  have hstart : joined (itemChars (v :: vs)) ++ rest = c :: (cs ++ tail ++ rest) := by
    rw [itemChars, htail, hcs]
    rfl
  have hbracket : isSpace '[' = false := rfl
  rw [hstart, value?.eq_def]
  simp only [skip_cons hbracket, skip_cons hspace]
  split
  · -- the first item is not the end of the list
    next h => exact absurd (List.cons.inj h).1 hend
  · rfl

/-- A table that is not empty is read entry by entry. -/
theorem value?_table (bound : Nat) (e : String × Value) (es : List (String × Value))
    (rest : List Char) :
    value? (bound + 1) ('\x7b' :: (joined (entryChars (e :: es)) ++ rest)) =
      (entries? bound [] (joined (entryChars (e :: es)) ++ rest)).map
        fun p => (.table p.1, p.2) := by
  obtain ⟨key, v⟩ := e
  obtain ⟨tail, htail⟩ :=
    joined_cons (quoteChars key.toList ++ ':' :: ' ' :: chars v) (entryChars es)
  rw [entryChars, htail, quoteChars, value?.eq_def]
  rfl

theorem items?_space (bound : Nat) (cs : List Char) :
    items? bound (' ' :: cs) = items? bound cs := by
  cases bound with
  | zero => rfl
  | succ bound => rw [items?, items?, value?_space]

theorem entries?_space (bound : Nat) (before : List (String × Value)) (cs : List Char) :
    entries? bound before (' ' :: cs) = entries? bound before cs := by
  cases bound with
  | zero => rfl
  | succ bound => rw [entries?.eq_def, entries?.eq_def]; rfl

section

variable {bound : Nat} {cs rest : List Char} {v : Value}

theorem items?_last (h : value? bound cs = some (v, ']' :: rest)) :
    items? (bound + 1) cs = some ([v], rest) := by
  rw [items?, h]
  rfl

theorem items?_next (h : value? bound cs = some (v, ',' :: ' ' :: rest)) :
    items? (bound + 1) cs = (items? bound rest).map fun p => (v :: p.1, p.2) := by
  rw [items?, h]
  show (items? bound (' ' :: rest)).bind _ = _
  rw [items?_space]
  cases items? bound rest <;> rfl

/-- The entry that comes first is read up to its value. -/
theorem entries?_key (before : List (String × Value)) (key : String)
    (h : value? bound cs = some (v, rest)) :
    entries? (bound + 1) before (quoteChars key.toList ++ ':' :: ' ' :: cs) =
      match skip rest with
      | ',' :: rest => entries? bound (setEntry key v before) rest
      | '\x7d' :: rest => some (setEntry key v before, rest)
      | _ => none := by
  rw [quoteChars, List.cons_append, List.append_assoc, List.singleton_append, entries?.eq_def]
  show (text? (key.toList.flatMap escapeChar ++ '\x22' :: ':' :: ' ' :: cs)).bind _ = _
  rw [text?_escaped, String.ofList_toList, Option.bind_some]
  show (value? bound (' ' :: cs)).bind _ = _
  rw [value?_space, h]
  rfl

theorem entries?_last (before : List (String × Value)) (key : String)
    (h : value? bound cs = some (v, '\x7d' :: rest)) :
    entries? (bound + 1) before (quoteChars key.toList ++ ':' :: ' ' :: cs) =
      some (setEntry key v before, rest) :=
  entries?_key before key h

theorem entries?_next (before : List (String × Value)) (key : String)
    (h : value? bound cs = some (v, ',' :: ' ' :: rest)) :
    entries? (bound + 1) before (quoteChars key.toList ++ ':' :: ' ' :: cs) =
      entries? bound (setEntry key v before) rest :=
  (entries?_key before key h).trans (entries?_space ..)

end

theorem joined_itemChars (v w : Value) (ws : List Value) :
    joined (itemChars (v :: w :: ws)) = chars v ++ ',' :: ' ' :: joined (itemChars (w :: ws)) := by
  rw [itemChars, itemChars]
  rfl

theorem joined_entryChars (key : String) (v : Value) (f : String × Value)
    (fs : List (String × Value)) :
    joined (entryChars ((key, v) :: f :: fs)) =
      quoteChars key.toList ++ ':' :: ' ' :: chars v ++
        ',' :: ' ' :: joined (entryChars (f :: fs)) := by
  rw [entryChars, entryChars]
  rfl

/-- What is read back within a bound: values, the items of a list, and the entries of a table. -/
structure Reads (bound : Nat) : Prop where
  value (v : Value) (rest : List Char) : v.Discrete → Delimited rest →
    (chars v).length < bound → value? bound (chars v ++ rest) = some (v, rest)
  items (v : Value) (vs : List Value) (rest : List Char) : (∀ x ∈ v :: vs, x.Discrete) →
    (joined (itemChars (v :: vs))).length + 1 < bound →
      items? bound (joined (itemChars (v :: vs)) ++ ']' :: rest) = some (v :: vs, rest)
  entries (before : List (String × Value)) (e : String × Value) (es : List (String × Value))
    (rest : List Char) : ((before ++ e :: es).map Prod.fst).Nodup →
    (∀ x ∈ e :: es, x.2.Discrete) → (joined (entryChars (e :: es))).length + 1 < bound →
      entries? bound before (joined (entryChars (e :: es)) ++ '\x7d' :: rest) =
        some (before ++ e :: es, rest)

section

variable {bound : Nat} (ih : Reads bound)

include ih

theorem Reads.value_succ {v : Value} (hv : v.Discrete) {rest : List Char} (hrest : Delimited rest)
    (hlength : (chars v).length < bound + 1) :
    value? (bound + 1) (chars v ++ rest) = some (v, rest) := by
  cases hv with
  | null => rw [chars, value?.eq_def]; rfl
  | bool b => cases b <;> (rw [chars, value?.eq_def]; rfl)
  | int hn => exact value?_int bound hn hrest
  | str s => exact value?_str bound s rest
  | @list items hitems =>
    rw [chars] at hlength ⊢
    rw [List.length_cons, List.length_append, List.length_singleton] at hlength
    rw [List.cons_append, List.append_assoc, List.singleton_append]
    cases items with
    | nil => rw [value?.eq_def]; rfl
    | cons v vs =>
      rw [value?_list bound (hitems v List.mem_cons_self),
        ih.items v vs rest hitems (by omega), Option.map_some]
  | @table entries hnodup hentries =>
    rw [chars] at hlength ⊢
    rw [List.length_cons, List.length_append, List.length_singleton] at hlength
    rw [List.cons_append, List.append_assoc, List.singleton_append]
    cases entries with
    | nil => rw [value?.eq_def]; rfl
    | cons e es =>
      rw [value?_table, ih.entries [] e es rest hnodup hentries (by omega), Option.map_some,
        List.nil_append]

theorem Reads.items_succ {v : Value} {vs : List Value} (h : ∀ x ∈ v :: vs, x.Discrete)
    (rest : List Char) (hlength : (joined (itemChars (v :: vs))).length + 1 < bound + 1) :
    items? (bound + 1) (joined (itemChars (v :: vs)) ++ ']' :: rest) = some (v :: vs, rest) := by
  obtain ⟨hv, hvs⟩ := List.forall_mem_cons.mp h
  cases vs with
  | nil =>
    rw [itemChars, itemChars, joined] at hlength ⊢
    exact items?_last (ih.value v _ hv (delimited_cons (.inr (.inl rfl)) _) (by omega))
  | cons w ws =>
    rw [joined_itemChars] at hlength ⊢
    rw [List.length_append, List.length_cons, List.length_cons] at hlength
    have hread := ih.value v (',' :: ' ' :: (joined (itemChars (w :: ws)) ++ ']' :: rest)) hv
      (delimited_cons (.inl rfl) _) (by omega)
    rw [List.append_assoc]
    refine (items?_next hread).trans ?_
    rw [ih.items w ws rest hvs (by omega), Option.map_some]

theorem Reads.entries_succ {before : List (String × Value)} {e : String × Value}
    {es : List (String × Value)} (hnodup : ((before ++ e :: es).map Prod.fst).Nodup)
    (h : ∀ x ∈ e :: es, x.2.Discrete) (rest : List Char)
    (hlength : (joined (entryChars (e :: es))).length + 1 < bound + 1) :
    entries? (bound + 1) before (joined (entryChars (e :: es)) ++ '\x7d' :: rest) =
      some (before ++ e :: es, rest) := by
  obtain ⟨key, v⟩ := e
  obtain ⟨hv, hes⟩ := List.forall_mem_cons.mp h
  have hkey : key ∉ before.map Prod.fst := by
    rw [List.map_append, List.nodup_append] at hnodup
    intro hmem
    exact hnodup.2.2 key hmem key List.mem_cons_self rfl
  have hset := setEntry_of_notMem hkey v
  cases es with
  | nil =>
    rw [entryChars, entryChars, joined] at hlength ⊢
    rw [List.length_append, List.length_cons, List.length_cons] at hlength
    have hread := ih.value v ('\x7d' :: rest) hv (delimited_cons (.inr (.inr rfl)) _) (by omega)
    rw [← hset, List.append_assoc]
    exact entries?_last before key hread
  | cons f fs =>
    rw [joined_entryChars] at hlength ⊢
    rw [List.length_append, List.length_append, List.length_cons, List.length_cons,
      List.length_cons, List.length_cons] at hlength
    have hread := ih.value v (',' :: ' ' :: (joined (entryChars (f :: fs)) ++ '\x7d' :: rest)) hv
      (delimited_cons (.inl rfl) _) (by omega)
    rw [List.append_assoc, List.append_assoc]
    refine (entries?_next before key hread).trans ?_
    rw [hset, ih.entries _ f fs rest (by rwa [List.append_assoc]) hes (by omega), List.append_assoc]
    rfl

end

/-- **What the readers read back**, for every bound. -/
theorem reads (bound : Nat) : Reads bound := by
  induction bound with
  | zero =>
    exact ⟨fun _ _ _ _ h => absurd h (Nat.not_lt_zero _),
      fun _ _ _ _ h => absurd h (Nat.not_lt_zero _),
      fun _ _ _ _ _ _ h => absurd h (Nat.not_lt_zero _)⟩
  | succ bound ih =>
    exact ⟨fun _ _ hv hrest => ih.value_succ hv hrest, fun _ _ rest h => ih.items_succ h rest,
      fun _ _ _ rest hnodup h => ih.entries_succ hnodup h rest⟩

end JsonReader

/-- **A discrete value reads back** from its JSON text. -/
theorem ofJson?_toJson {v : Value} (hv : v.Discrete) : ofJson? v.toJson = some v := by
  have hread := (JsonReader.reads ((chars v).length + 1)).value v [] hv
    (fun _ h => nomatch h) (Nat.lt_succ_self _)
  rw [List.append_nil] at hread
  rw [ofJson?, toJson, String.toList_ofList, hread]
  rfl

/-! ### Printable text -/

namespace Json

theorem printed_joined {items : List (List Char)} (h : ∀ item ∈ items, ∀ c ∈ item, Printed c) :
    ∀ c ∈ joined items, Printed c := by
  fun_induction joined items with
  | case1 => exact fun _ hc => absurd hc List.not_mem_nil
  | case2 item => exact h item List.mem_cons_self
  | case3 item rest _ ih =>
    obtain ⟨hitem, hrest⟩ := List.forall_mem_cons.mp h
    rw [List.forall_mem_append, List.forall_mem_cons, List.forall_mem_cons]
    exact ⟨hitem, by decide, by decide, ih hrest⟩

theorem itemChars_eq_map (items : List Value) : itemChars items = items.map chars := by
  induction items with
  | nil => rw [itemChars, List.map_nil]
  | cons v vs ih => rw [itemChars, ih, List.map_cons]

theorem entryChars_eq_map (entries : List (String × Value)) :
    entryChars entries = entries.map fun e => quoteChars e.1.toList ++ ':' :: ' ' :: chars e.2 := by
  induction entries with
  | nil => rw [entryChars, List.map_nil]
  | cons e es ih => rw [entryChars, ih, List.map_cons]

/-- What stands between brackets is printable if the items are. -/
theorem printed_bracketed {first last : Char} (hfirst : Printed first) (hlast : Printed last)
    {items : List (List Char)} (h : ∀ item ∈ items, ∀ c ∈ item, Printed c) :
    ∀ c ∈ first :: (joined items ++ [last]), Printed c := by
  rw [List.forall_mem_cons, List.forall_mem_append, List.forall_mem_singleton]
  exact ⟨hfirst, printed_joined h, hlast⟩

theorem printed_of_isDigit {c : Char} (h : JsonReader.isDigit c = true) : Printed c := by
  rw [JsonReader.isDigit, Bool.and_eq_true, decide_eq_true_iff, decide_eq_true_iff] at h
  have hlow : 48 ≤ c.toNat := h.1
  have hhigh : c.toNat ≤ 57 := h.2
  exact ⟨by omega, by omega⟩

/-- **The text of a value without doubles** is printable ASCII. -/
theorem printed_chars {v : Value} (hv : v.Doubleless) : ∀ c ∈ chars v, Printed c := by
  induction hv with
  | null =>
    rw [chars]
    exact printed_of_all rfl
  | bool b =>
    rw [chars]
    cases b with
    | false => exact printed_of_all rfl
    | true => exact printed_of_all rfl
  | int n =>
    have hdigits : ∀ m : Nat, ∀ c ∈ Nat.toDigits 10 m, Printed c :=
      fun m c hc => printed_of_isDigit (JsonReader.isDigit_of_mem_toDigits hc)
    obtain ⟨m, ⟨-, hm⟩ | ⟨-, hm⟩⟩ := JsonReader.chars_int n
    · rw [hm]
      exact hdigits m
    · rw [hm, List.forall_mem_cons]
      exact ⟨by decide, hdigits m⟩
  | str s =>
    rw [chars]
    exact printed_quoteChars s.toList
  | @list items _ ih =>
    rw [chars, itemChars_eq_map]
    exact printed_bracketed (by decide) (by decide) (List.forall_mem_map.mpr ih)
  | @table entries _ ih =>
    rw [chars, entryChars_eq_map]
    refine printed_bracketed (by decide) (by decide) (List.forall_mem_map.mpr fun e he => ?_)
    rw [List.forall_mem_append, List.forall_mem_cons, List.forall_mem_cons]
    exact ⟨printed_quoteChars _, by decide, by decide, ih e he⟩

end Json

end GrowthAudit.Value
