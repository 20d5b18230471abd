import GrowthAudit.Dump.Specifiers
import Mathlib.Data.List.Nodup
import Mathlib.Logic.Relation

/-!
# Scans that come round

The scan for the specifiers of a function goes from each token to the next one, except for a
`noexcept` or `throw` in front of a parenthesis, from which it goes to the token behind the closing
parenthesis.  Where the parenthesis carries a link, the linked token is taken for the closing one,
and it may be anywhere.

* `Specifiers.Leads`: where the scan goes on from a position, whatever has been read so far.
* `Specifiers.ComesRound`: the scan gets to a place and from there to this place again.
* `Specifiers.scan?_eq_none_iff`: a scan is cut only if it comes round, so as many positions as
  there are tokens are enough for every other one.
* `Specifiers.LinkedBack`: the only way back, a link to a token in front of the keyword.
* `Specifiers.endless_iff_comesRound`: the scan never ends exactly where it comes round, and it ends
  where it meets no link back.
-/

namespace GrowthAudit

namespace Token

/-- Links come in pairs: a token that is linked with another one is the link of that one. -/
def LinkedInPairs (ts : List Token) : Prop :=
  ∀ i < ts.length, ∀ j ∈ ts[i]?.bind (·.link), ts[j]?.bind (·.link) = some i

instance (ts : List Token) : Decidable (LinkedInPairs ts) :=
  inferInstanceAs
    (Decidable (∀ i < ts.length, ∀ j ∈ ts[i]?.bind (·.link), ts[j]?.bind (·.link) = some i))

theorem le_of_closingFrom {depth position close : Nat} {ts : List Token}
    (h : closingFrom depth position ts = some close) : position ≤ close := by
  induction ts generalizing depth position with
  | nil => exact nomatch h
  | cons t ts ih =>
    rw [closingFrom] at h
    split at h
    · exact Nat.le_of_succ_le (ih h)
    · split at h
      · split at h
        · exact Nat.le_of_eq (Option.some.inj h)
        · exact Nat.le_of_succ_le (ih h)
      · exact Nat.le_of_succ_le (ih h)

end Token

namespace Specifiers

variable {ts : List Token} {i j k bound : Nat} {s : Specifiers} {passed : List Nat}

/-! ### One step of the scan -/

/-- The token at a position is one whose parentheses the scan steps over. -/
def Opens (ts : List Token) (i : Nat) : Prop :=
  (Token.textOf ts[i]? = "noexcept" ∨ Token.textOf ts[i]? = "throw") ∧
    Token.textOf ts[i + 1]? = "("

instance (ts : List Token) (i : Nat) : Decidable (Opens ts i) :=
  inferInstanceAs (Decidable (_ ∧ _))

/-- The scan goes on from one position to another. -/
inductive Leads (ts : List Token) : Nat → Nat → Prop
  | succ {i : Nat} {t : Token} : ts[i]? = some t → isEnd t = false → ¬ Opens ts i →
      Leads ts i (i + 1)
  | jump {i close : Nat} {t : Token} : ts[i]? = some t → isEnd t = false → Opens ts i →
      Token.closing? ts (i + 1) = some close → Leads ts i (close + 1)

/-- Where the scan goes on does not depend on what has been read. -/
theorem step_snd (ts : List Token) (i : Nat) (s : Specifiers) :
    (step ts i s).2 =
      if Opens ts i then (Token.closing? ts (i + 1)).map (· + 1) else some (i + 1) := by
  by_cases hopens : Opens ts i
  · obtain ⟨hword, hopen⟩ := id hopens
    rw [if_pos hopens]
    rcases hword with hword | hword <;> simp [step, hword, hopen]
  · rw [if_neg hopens]
    simp only [step]
    split
    next hword =>
      rw [if_neg fun hopen => hopens ⟨Or.inl hword, hopen⟩]
    next =>
      split
      next hword => exact absurd ⟨Or.inr hword.1, hword.2⟩ hopens
      next => split <;> rfl

theorem leads_iff {t : Token} (ht : ts[i]? = some t) (s : Specifiers) :
    Leads ts i j ↔ isEnd t = false ∧ (step ts i s).2 = some j := by
  rw [step_snd]
  constructor
  · intro h
    cases h with
    | succ ht' hend hopens =>
      obtain rfl := Option.some.inj (ht.symm.trans ht')
      exact ⟨hend, if_neg hopens⟩
    | jump ht' hend hopens hclose =>
      obtain rfl := Option.some.inj (ht.symm.trans ht')
      rw [if_pos hopens, hclose]
      exact ⟨hend, rfl⟩
  · rintro ⟨hend, hj⟩
    by_cases hopens : Opens ts i
    · rw [if_pos hopens] at hj
      obtain ⟨close, hclose, rfl⟩ := Option.map_eq_some_iff.mp hj
      exact .jump ht hend hopens hclose
    · rw [if_neg hopens] at hj
      obtain rfl := Option.some.inj hj
      exact .succ ht hend hopens

theorem Leads.lt_length (h : Leads ts i j) : i < ts.length := by
  cases h with
  | succ ht => exact (List.getElem?_eq_some_iff.mp ht).1
  | jump ht => exact (List.getElem?_eq_some_iff.mp ht).1

/-- There is at most one way on. -/
theorem Leads.unique (hj : Leads ts i j) (hk : Leads ts i k) : j = k := by
  have ht := List.getElem?_eq_getElem hj.lt_length
  have hj := ((leads_iff ht {}).mp hj).2
  have hk := ((leads_iff ht {}).mp hk).2
  exact Option.some.inj (hj.symm.trans hk)

/-- A scan with one position more either ends here or goes on where the step leads. -/
theorem scan?_succ (ts : List Token) (bound i : Nat) (s : Specifiers) :
    (∃ r, scan? ts (bound + 1) i s = some r ∧ ∀ j, ¬ Leads ts i j) ∨
      ∃ j s', Leads ts i j ∧ step ts i s = (s', some j) ∧
        scan? ts (bound + 1) i s = scan? ts bound j s' := by
  rw [scan?]
  cases ht : ts[i]? with
  | none =>
    refine Or.inl ⟨s, rfl, fun j hj => ?_⟩
    have hlt := hj.lt_length
    rw [List.getElem?_eq_none_iff] at ht
    omega
  | some t =>
    by_cases hend : isEnd t
    · refine Or.inl ⟨s, by simp [hend], fun j hj => ?_⟩
      have hnot := ((leads_iff ht s).mp hj).1
      exact absurd hend (by simp [hnot])
    · cases hstep : step ts i s with
      | mk s' next =>
        cases next with
        | none =>
          refine Or.inl ⟨s', by simp [hend], fun j hj => ?_⟩
          have hsnd := ((leads_iff ht s).mp hj).2
          rw [hstep] at hsnd
          cases hsnd
        | some j =>
          have hleads : Leads ts i j :=
            (leads_iff ht s).mpr ⟨eq_false_of_ne_true hend, by rw [hstep]⟩
          exact Or.inr ⟨j, s', hleads, rfl, by simp [hend]⟩

/-! ### Round trips -/

/-- The scan from a position gets to a place where it has been. -/
def ComesRound (ts : List Token) (i : Nat) : Prop :=
  ∃ k, Relation.ReflTransGen (Leads ts) i k ∧ Relation.TransGen (Leads ts) k k

theorem ComesRound.exists_next (h : ComesRound ts i) : ∃ j, Leads ts i j ∧ ComesRound ts j := by
  obtain ⟨k, hik, hkk⟩ := h
  rcases Relation.ReflTransGen.cases_head hik with rfl | ⟨j, hij, hjk⟩
  · obtain ⟨j, hij, hji⟩ := Relation.TransGen.head'_iff.mp hkk
    exact ⟨j, hij, i, hji, hkk⟩
  · exact ⟨j, hij, k, hjk, hkk⟩

theorem ComesRound.scan?_eq_none (h : ComesRound ts i) : scan? ts bound i s = none := by
  induction bound generalizing i s with
  | zero => rfl
  | succ bound ih =>
    obtain ⟨j, hij, hj⟩ := h.exists_next
    rcases scan?_succ ts bound i s with ⟨r, -, hstays⟩ | ⟨k, s', hik, -, hscan⟩
    · exact absurd hij (hstays j)
    · obtain rfl := hij.unique hik
      rw [hscan, ih hj]

/-- The positions that the scan has passed are different and lead to where it is, and together with
those that it may still pass they are more than there are tokens. -/
structure Passed (ts : List Token) (bound : Nat) (passed : List Nat) (i : Nat) : Prop where
  nodup : passed.Nodup
  bounded : ∀ k ∈ passed, k < ts.length
  leads : ∀ k ∈ passed, Relation.TransGen (Leads ts) k i
  room : ts.length < bound + passed.length

namespace Passed

theorem step (h : Passed ts (bound + 1) passed i) (hi : i ∉ passed) (hij : Leads ts i j) :
    Passed ts bound (i :: passed) j where
  nodup := List.nodup_cons.mpr ⟨hi, h.nodup⟩
  bounded := by
    intro k hk
    rcases List.mem_cons.mp hk with rfl | hk
    · exact hij.lt_length
    · exact h.bounded k hk
  leads := by
    intro k hk
    rcases List.mem_cons.mp hk with rfl | hk
    · exact .single hij
    · exact .tail (h.leads k hk) hij
  room := by
    have hroom := h.room
    rw [List.length_cons]
    omega

/-- There are not more different positions than tokens, so a scan is never cut in new places. -/
theorem pos (h : Passed ts bound passed i) : 0 < bound := by
  have hle : passed.length ≤ (List.range ts.length).length :=
    h.nodup.length_le_of_subset fun k hk => List.mem_range.mpr (h.bounded k hk)
  have hroom := h.room
  rw [List.length_range] at hle
  omega

theorem comesRound (h : Passed ts bound passed i) (hscan : scan? ts bound i s = none) :
    ComesRound ts i := by
  induction bound generalizing passed i s with
  | zero => exact absurd h.pos (Nat.lt_irrefl 0)
  | succ bound ih =>
    by_cases hi : i ∈ passed
    · exact ⟨i, .refl, h.leads i hi⟩
    · rcases scan?_succ ts bound i s with ⟨r, hr, -⟩ | ⟨j, s', hij, -, hrest⟩
      · exact nomatch hscan.symm.trans hr
      · obtain ⟨k, hjk, hkk⟩ := ih (h.step hi hij) (hrest.symm.trans hscan)
        exact ⟨k, .head hij hjk, hkk⟩

end Passed

/-- The scan over a row of tokens is cut only where it comes round. -/
theorem scan?_eq_none_iff : scan? ts (ts.length + 1) i s = none ↔ ComesRound ts i := by
  constructor
  · intro hscan
    have hstart : Passed ts (ts.length + 1) [] i := ⟨List.nodup_nil, nofun, nofun, by simp⟩
    exact hstart.comesRound hscan
  · exact ComesRound.scan?_eq_none

/-- A scan that ends at all ends within the bound. -/
theorem scan?_eq_some_iff {r : Specifiers} :
    scan? ts (ts.length + 1) i s = some r ↔ ∃ bound, scan? ts bound i s = some r := by
  refine ⟨fun h => ⟨_, h⟩, fun ⟨bound, h⟩ => ?_⟩
  cases hscan : scan? ts (ts.length + 1) i s with
  | none =>
    have hround := scan?_eq_none_iff.mp hscan
    exact nomatch h.symm.trans hround.scan?_eq_none
  | some r' =>
    have hmore := scan?_of_le hscan (Nat.le_max_left _ bound)
    rw [scan?_of_le h (Nat.le_max_right (ts.length + 1) bound)] at hmore
    exact hmore.symm

/-! ### The way back -/

/-- The parenthesis behind a `noexcept` or `throw` is linked with a token in front of that word. -/
def LinkedBack (ts : List Token) (i : Nat) : Prop :=
  Opens ts i ∧ ∃ close ∈ ts[i + 1]?.bind (·.link), close < i

instance (ts : List Token) (i : Nat) : Decidable (LinkedBack ts i) :=
  inferInstanceAs (Decidable (Opens ts i ∧ ∃ close ∈ ts[i + 1]?.bind (·.link), close < i))

theorem LinkedBack.lt_length (h : LinkedBack ts i) : i < ts.length := by
  obtain ⟨-, close, hclose, -⟩ := h
  obtain ⟨t, ht, -⟩ := Option.bind_eq_some_iff.mp hclose
  exact Nat.lt_of_succ_lt (List.getElem?_eq_some_iff.mp ht).1

theorem Leads.lt (h : Leads ts i j) (hback : ¬ LinkedBack ts i) : i < j := by
  cases h with
  | succ => exact Nat.lt_succ_self i
  | jump _ _ hopens hclose =>
    rw [Token.closing?] at hclose
    split at hclose
    next l hl =>
      obtain rfl := Option.some.inj hclose
      by_contra hlt
      exact hback ⟨hopens, l, hl, by omega⟩
    next =>
      have hle := Token.le_of_closingFrom hclose
      omega

/-- On every round trip there is a link back. -/
theorem ComesRound.exists_linkedBack (h : ComesRound ts i) :
    ∃ k, Relation.ReflTransGen (Leads ts) i k ∧ LinkedBack ts k := by
  obtain ⟨k, hik, hkk⟩ := h
  by_contra hnone
  push Not at hnone
  have hlt : ∀ {j}, Relation.TransGen (Leads ts) k j → k < j := by
    intro j hkj
    induction hkj with
    | single hkj => exact hkj.lt (hnone k hik)
    | tail hkj hjl ih => exact Nat.lt_trans ih (hjl.lt (hnone _ (hik.trans hkj.to_reflTransGen)))
  exact Nat.lt_irrefl k (hlt hkk)

/-- Where the scan for a function starts: behind its parameter list. -/
def start? (ts : List Token) (name : Option Nat) : Option Nat :=
  name.bind fun i =>
    if Token.textOf ts[i + 1]? = "(" then (Token.closing? ts (i + 1)).map (· + 1) else none

theorem read?_eq (ts : List Token) (name : Option Nat) :
    read? ts name = (start? ts name).elim (some {}) fun i => scan? ts (ts.length + 1) i {} := by
  cases name with
  | none => rfl
  | some i =>
    simp only [read?, start?, Option.bind_some]
    split
    · cases Token.closing? ts (i + 1) <;> rfl
    · rfl

theorem read?_eq_none_iff {name : Option Nat} :
    read? ts name = none ↔ ∃ i ∈ start? ts name, ComesRound ts i := by
  rw [read?_eq]
  cases start? ts name with
  | none => simp
  | some i => simp [scan?_eq_none_iff]

theorem exists_read? {name : Option Nat}
    (hback : ∀ i ∈ start? ts name, ∀ k, Relation.ReflTransGen (Leads ts) i k → ¬ LinkedBack ts k) :
    ∃ r, read? ts name = some r := by
  refine Option.ne_none_iff_exists'.mp fun hnone => ?_
  obtain ⟨i, hi, hround⟩ := read?_eq_none_iff.mp hnone
  obtain ⟨k, hik, hk⟩ := hround.exists_linkedBack
  exact hback i hi k hik hk

/-- **A scan never ends exactly where it comes round**, and it ends where it meets no link back. -/
theorem endless_iff_comesRound (ts : List Token) (name : Option Nat) :
    (read? ts name = none ↔ ∃ i ∈ start? ts name, ComesRound ts i) ∧
      ((∀ i ∈ start? ts name, ∀ k, Relation.ReflTransGen (Leads ts) i k → ¬ LinkedBack ts k) →
        ∃ r, read? ts name = some r) :=
  ⟨read?_eq_none_iff, exists_read?⟩

/-- `f ( ) noexcept ( x ) ;` with the second parenthesis linked to the semicolon. -/
def strayLinkSample : List Token :=
  [{ text := "f" }, { text := "(" }, { text := ")" }, { text := "noexcept" },
    { text := "(", link := some 7 }, { text := "x" }, { text := ")" },
    { text := ";", link := some 4 }]

/-- A link that disagrees with the nesting does no harm as long as it leads forward. -/
theorem endless_iff_comesRound_sample :
    Token.LinkedInPairs strayLinkSample ∧ start? strayLinkSample (some 0) = some 3 ∧
      (∀ k, Relation.ReflTransGen (Leads strayLinkSample) 3 k → ¬ LinkedBack strayLinkSample k) ∧
      ∃ r, read? strayLinkSample (some 0) = some r := by
  have hstart : start? strayLinkSample (some 0) = some 3 := by decide
  have hinside : ∀ k < strayLinkSample.length, ¬ LinkedBack strayLinkSample k := by decide
  have hback : ∀ k, ¬ LinkedBack strayLinkSample k := fun k hk => hinside k hk.lt_length hk
  refine ⟨by decide, hstart, fun k _ => hback k, ?_⟩
  exact (endless_iff_comesRound strayLinkSample (some 0)).2 fun _ _ k _ => hback k

/-- `f ( ) noexcept ( ) ;` with the parenthesis in front of `noexcept` linked to the one behind
it. -/
def roundSample : List Token :=
  [{ text := "f" }, { text := "(" }, { text := ")", link := some 4 }, { text := "noexcept" },
    { text := "(", link := some 2 }, { text := ")" }, { text := ";" }]

/-- Links in pairs are not enough: from `noexcept` the scan goes back and comes to `noexcept`
again. -/
theorem roundSample_endless :
    Token.LinkedInPairs roundSample ∧ start? roundSample (some 0) = some 3 ∧
      Leads roundSample 3 3 ∧ read? roundSample (some 0) = none := by
  have hleads : Leads roundSample 3 3 :=
    .jump rfl (by decide) (by decide) (by decide : Token.closing? roundSample 4 = some 2)
  exact ⟨by decide, by decide, hleads, by decide⟩

end Specifiers

end GrowthAudit
