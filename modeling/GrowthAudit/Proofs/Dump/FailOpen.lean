import GrowthAudit.Proofs.Dump.Exposure

/-!
# When hiding definitions reports nothing new

A record without a visible definition is safe, so one would like that hiding definitions never has a
record reported that was not (`Configuration.FailsOpen`).  But it has where safety rests on being
trivially copyable, and `relyingSample` is an example: `S` has no move constructor and needs none,
as long as one can see that `Q` is empty.

* `failsOpen_iff`: a record fails open if doubt does not let it degrade, or if it degrades anyway.
  Where all cycles are static, these are all that do, and hiding one record is enough to report any
  other.

The statement is about answers that are whole and keys that are different.  `unwholeSample` and
`clashingSample` show what happens otherwise: hiding a record changes what is being built, or what
is remembered, when another one is met.
-/

namespace GrowthAudit.Configuration

variable {c : Configuration}

/-- Hiding definitions does not report the record. -/
def FailsOpen (c : Configuration) (i : Nat) : Prop :=
  ∀ hidden, (∀ j ∈ hidden, c.kindOf j = .record) →
    ((c.hide hidden).recordType i []).1.degrades = true → (c.recordType i []).1.degrades = true

theorem failsOpen_of_doubted (hkeys : Function.Injective c.keyOf) {i : Nat}
    (hwhole : c.Whole (.record i) (c.recordType i []).1)
    (hdoubt : (c.recordType i []).1.doubted.degrades = true →
      (c.recordType i []).1.degrades = true) : c.FailsOpen i := by
  intro hidden _ hdeg
  have hu := typeOf_means_anything (c.keyOf_hide_injective hidden hkeys) (Resolution.plain_record i)
  exact hdoubt ((softens_hide hidden).degrades ⟨.record i, _, hwhole, rfl, hu⟩ hdeg)

/-- What degrades in doubt degrades anyway, or as soon as one record inside is hidden. -/
theorem degrades_or_exists_hidden (hkeys : Function.Injective c.keyOf)
    (hstatic : c.OnlyStaticCycles) {i : Nat}
    (h : (c.recordType i []).1.doubted.degrades = true) :
    (c.recordType i []).1.degrades = true ∨
      ∃ j, c.Holds i j ∧ c.kindOf j = .record ∧
        ((c.hide [j]).recordType i []).1.degrades = true := by
  have ht := (typeOf_whole hkeys hstatic (Resolution.plain_record i) (remembers_nil _)).1
  refine (degrades_or_exposed hstatic ht h).imp_right ?_
  rintro ⟨j, hij, hkind, hexp⟩
  have hu := (typeOf_whole (c.keyOf_hide_injective [j] hkeys) (hstatic.hide [j])
    (Resolution.plain_record i) (remembers_nil _)).1
  obtain ⟨r', hr'⟩ := exists_record_of_holds hstatic hij hu
  rw [hr'] at hu
  have hdeg : (CppType.complete r').degrades = true := hexp r' hu
  rw [← hr'] at hdeg
  exact ⟨j, hij, hkind, hdeg⟩

theorem doubted_of_failsOpen (hkeys : Function.Injective c.keyOf) (hstatic : c.OnlyStaticCycles)
    {i : Nat} (hopen : c.FailsOpen i)
    (h : (c.recordType i []).1.doubted.degrades = true) :
    (c.recordType i []).1.degrades = true := by
  rcases degrades_or_exists_hidden hkeys hstatic h with h | ⟨j, -, hkind, hdeg⟩
  · exact h
  · refine hopen [j] (fun k hk => ?_) hdeg
    rw [List.mem_singleton.mp hk]
    exact hkind

theorem not_failsOpen {i : Nat} (hidden : List Nat) (hkind : ∀ j ∈ hidden, c.kindOf j = .record)
    (hbefore : (c.recordType i []).1.degrades = false)
    (hafter : ((c.hide hidden).recordType i []).1.degrades = true) : ¬ c.FailsOpen i :=
  fun h => nomatch hbefore.symm.trans (h hidden hkind hafter)

/-- **When hiding definitions reports nothing new.**  A record whose answer is whole fails open if
doubt does not let it degrade, or if it degrades anyway.  Where all cycles are static this is the
only way to fail open: a record that degrades in doubt only is reported as soon as one record inside
is hidden. -/
theorem failsOpen_iff (hkeys : Function.Injective c.keyOf) :
    (∀ i, c.Whole (.record i) (c.recordType i []).1 →
        ((c.recordType i []).1.doubted.degrades = true → (c.recordType i []).1.degrades = true) →
        c.FailsOpen i) ∧
      (c.OnlyStaticCycles → ∀ i, c.FailsOpen i ↔
        ((c.recordType i []).1.doubted.degrades = true →
          (c.recordType i []).1.degrades = true)) ∧
      (c.OnlyStaticCycles → ∀ i, (c.recordType i []).1.doubted.degrades = true →
        (c.recordType i []).1.degrades = false →
        ∃ j, c.Holds i j ∧ c.kindOf j = .record ∧
          ((c.hide [j]).recordType i []).1.degrades = true) := by
  refine ⟨fun i hwhole hdoubt => failsOpen_of_doubted hkeys hwhole hdoubt, fun hstatic i => ?_,
    fun hstatic i hdoubt hsafe => ?_⟩
  · constructor
    · exact doubted_of_failsOpen hkeys hstatic
    · exact failsOpen_of_doubted hkeys
        (typeOf_whole hkeys hstatic (Resolution.plain_record i) (remembers_nil _)).1
  · refine (degrades_or_exists_hidden hkeys hstatic hdoubt).resolve_left ?_
    rw [hsafe]
    exact Bool.false_ne_true

/-! ### Records that rely on what they contain -/

/-- `struct Q { }; struct S { Q q; ~S() = default; }; struct R { S s; R(R&&) noexcept; };`, with the
scopes of `Q`, `S` and `R` in this order. -/
def relyingSample : Configuration where
  tokens := [
    { text := "struct" }, { text := "Q" }, { text := "\x7b" }, { text := "\x7d" }, { text := ";" },
    { text := "struct" }, { text := "S" }, { text := "\x7b" }, { text := "Q" },
    { text := "q", valueType := some { type := "record", scope := some 0 } }, { text := ";" },
    { text := "~" }, { text := "S" }, { text := "(" }, { text := ")" }, { text := "=" },
    { text := "default" }, { text := ";" }, { text := "\x7d" }, { text := ";" },
    { text := "struct" }, { text := "R" }, { text := "\x7b" }, { text := "S" },
    { text := "s", valueType := some { type := "record", scope := some 1 } }, { text := ";" },
    { text := "R" }, { text := "(" }, { text := "R" }, { text := "&&" }, { text := ")" },
    { text := "noexcept" }, { text := ";" }, { text := "\x7d" }, { text := ";" }]
  scopes := [
    { kind := .record, className := "Q", id := some "1", bodyStart := some 2 },
    { kind := .record, className := "S", id := some "2", bodyStart := some 7
      members := [{ nameToken := some 9, typeStart := some 8, typeEnd := some 8 }]
      functions := [{ kind := .destructor, nameToken := some 12, isDefaulted := true }] },
    { kind := .record, className := "R", id := some "3", bodyStart := some 22
      members := [{ nameToken := some 24, typeStart := some 23, typeEnd := some 23 }]
      functions := [{ kind := .moveConstructor, nameToken := some 26 }] }]

/-- `S` relies on the `Q` inside, and hiding that has it reported; `R` does not rely on anything. -/
theorem failsOpen_iff_sample :
    Function.Injective relyingSample.keyOf ∧ relyingSample.OnlyStaticCycles ∧
      ¬ relyingSample.FailsOpen 1 ∧ relyingSample.FailsOpen 2 ∧
      ∃ j, relyingSample.Holds 1 j ∧ relyingSample.kindOf j = .record ∧
        ((relyingSample.hide [j]).recordType 1 []).1.degrades = true := by
  have hkeys : Function.Injective relyingSample.keyOf := keyOf_injective_of_nodup (by decide)
  have hrank : ∀ i < relyingSample.scopes.length, ∀ j ∈ relyingSample.mentioned i, j < i := by decide
  have hstatic : relyingSample.OnlyStaticCycles :=
    onlyStaticCycles_of_rank (fun i => i) (fun i hi j hj => Nat.le_of_lt (hrank i hi j hj))
      fun i hi j hj => hrank i hi j (mentioned_of_contained hj)
  obtain ⟨-, hiff, hhidden⟩ := failsOpen_iff hkeys
  refine ⟨hkeys, hstatic, ?_, ?_, hhidden hstatic 1 (by decide +kernel) (by decide +kernel)⟩
  · rw [hiff hstatic 1]
    decide +kernel
  · rw [hiff hstatic 2]
    decide +kernel

/-! ### What is being built and what is remembered -/

/-- `struct T { static U s; T(T&&); }; struct W { T t; W(W&&) noexcept; }; struct U { T t; };
struct S { W w; U u; };`, with the scopes of `T`, `W`, `U` and `S` in this order. -/
def unwholeSample : Configuration where
  tokens := [
    { text := "struct" }, { text := "T" }, { text := "\x7b" }, { text := "static" }, { text := "U" },
    { text := "s", valueType := some { type := "record", scope := some 2 } }, { text := ";" },
    { text := "T" }, { text := "(" }, { text := "T" }, { text := "&&" }, { text := ")" },
    { text := ";" }, { text := "\x7d" }, { text := ";" },
    { text := "struct" }, { text := "W" }, { text := "\x7b" }, { text := "T" },
    { text := "t", valueType := some { type := "record", scope := some 0 } }, { text := ";" },
    { text := "W" }, { text := "(" }, { text := "W" }, { text := "&&" }, { text := ")" },
    { text := "noexcept" }, { text := ";" }, { text := "\x7d" }, { text := ";" },
    { text := "struct" }, { text := "U" }, { text := "\x7b" }, { text := "T" },
    { text := "t", valueType := some { type := "record", scope := some 0 } }, { text := ";" },
    { text := "\x7d" }, { text := ";" },
    { text := "struct" }, { text := "S" }, { text := "\x7b" }, { text := "W" },
    { text := "w", valueType := some { type := "record", scope := some 1 } }, { text := ";" },
    { text := "U" }, { text := "u", valueType := some { type := "record", scope := some 2 } },
    { text := ";" }, { text := "\x7d" }, { text := ";" }]
  scopes := [
    { kind := .record, className := "T", id := some "1", bodyStart := some 2
      members := [{ nameToken := some 5, typeStart := some 4, typeEnd := some 4, isStatic := true }]
      functions := [{ kind := .moveConstructor, nameToken := some 7 }] },
    { kind := .record, className := "W", id := some "2", bodyStart := some 17
      members := [{ nameToken := some 19, typeStart := some 18, typeEnd := some 18 }]
      functions := [{ kind := .moveConstructor, nameToken := some 21 }] },
    { kind := .record, className := "U", id := some "3", bodyStart := some 32
      members := [{ nameToken := some 34, typeStart := some 33, typeEnd := some 33 }] },
    { kind := .record, className := "S", id := some "4", bodyStart := some 40
      members := [
        { nameToken := some 42, typeStart := some 41, typeEnd := some 41 },
        { nameToken := some 45, typeStart := some 44, typeEnd := some 44 }] }]

/-- `struct A { }; struct B { B(B&&); }; struct S { A a; B b; };`, with the scopes of `A`, `B` and
`S` in this order, the first two of which have the same key. -/
def clashingSample : Configuration where
  tokens := [
    { text := "struct" }, { text := "A" }, { text := "\x7b" }, { text := "\x7d" }, { text := ";" },
    { text := "struct" }, { text := "B" }, { text := "\x7b" }, { text := "B" }, { text := "(" },
    { text := "B" }, { text := "&&" }, { text := ")" }, { text := ";" }, { text := "\x7d" },
    { text := ";" },
    { text := "struct" }, { text := "S" }, { text := "\x7b" }, { text := "A" },
    { text := "a", valueType := some { type := "record", scope := some 0 } }, { text := ";" },
    { text := "B" }, { text := "b", valueType := some { type := "record", scope := some 1 } },
    { text := ";" }, { text := "\x7d" }, { text := ";" }]
  scopes := [
    { kind := .record, className := "A", id := some "1", bodyStart := some 2 },
    { kind := .record, className := "B", id := some "1", bodyStart := some 7
      functions := [{ kind := .moveConstructor, nameToken := some 8 }] },
    { kind := .record, className := "S", id := some "2", bodyStart := some 18
      members := [
        { nameToken := some 20, typeStart := some 19, typeEnd := some 19 },
        { nameToken := some 23, typeStart := some 22, typeEnd := some 22 }] }]

/-- Hiding `Q` has `S` of `relyingSample` reported, because `S` is not trivially copyable any more.
Hiding `W` has `S` of `unwholeSample` reported, because `U` is not built inside `T` any more.
Hiding the `A` of `clashingSample` has `S` reported, because it is not remembered for `B` any
more. -/
theorem hiding_reports_samples :
    ¬ relyingSample.FailsOpen 1 ∧
      (Function.Injective unwholeSample.keyOf ∧ unwholeSample.ContainmentAcyclic ∧
        (unwholeSample.recordType 3 []).1.doubted.degrades = false ∧ ¬ unwholeSample.FailsOpen 3) ∧
      (clashingSample.OnlyStaticCycles ∧
        (clashingSample.recordType 2 []).1.doubted.degrades = false ∧
        ¬ clashingSample.FailsOpen 2) := by
  refine ⟨?_, ⟨?_, ?_, by decide +kernel, ?_⟩, ?_, by decide +kernel, ?_⟩
  · exact not_failsOpen [0] (by decide) (by decide +kernel) (by decide +kernel)
  · exact keyOf_injective_of_nodup (by decide)
  · exact containmentAcyclic_of_rank (fun i => i) (by decide)
  · exact not_failsOpen [1] (by decide) (by decide +kernel) (by decide +kernel)
  · exact onlyStaticCycles_of_rank (fun i => i) (by decide) (by decide)
  · exact not_failsOpen [0] (by decide) (by decide +kernel) (by decide +kernel)

end GrowthAudit.Configuration
