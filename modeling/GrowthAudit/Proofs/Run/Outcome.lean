import GrowthAudit.Failure

/-!
# Outcomes

Whatever can fail has an outcome: a failure or a result.  What holds of the steps of a computation
holds of all of it.

* `Outcome.of_bind_eq_ok`, `Outcome.of_bind_eq_error`: where two steps one after the other succeed,
  and where they fail.
* `Outcome.Alike`: two outcomes are the same failure, or both are results that are related.
* `Outcome.Stops`: an outcome that is a given failure, or a result if there is none.
-/

namespace GrowthAudit.Outcome

/-! ### Steps -/

/-- Where steps one after the other succeed, the first succeeds and the others go on from there. -/
theorem of_bind_eq_ok {x : Except Failure α} {f : α → Except Failure β} {b : β}
    (h : x >>= f = .ok b) : ∃ a, x = .ok a ∧ f a = .ok b := by
  cases x with
  | error failure => cases h
  | ok a => exact ⟨a, rfl, h⟩

/-- Where steps one after the other fail, the first fails, or the others fail behind it. -/
theorem of_bind_eq_error {x : Except Failure α} {f : α → Except Failure β}
    {failure : Failure} (h : x >>= f = .error failure) :
    x = .error failure ∨ ∃ a, x = .ok a ∧ f a = .error failure := by
  cases x with
  | error failure =>
    cases h
    exact .inl rfl
  | ok a => exact .inr ⟨a, rfl, h⟩

/-- Where there is a default, a failure is about a value that was given. -/
theorem of_elim_eq_error {given : Option ι} {default : α} {f : ι → Except Failure α}
    {failure : Failure} (h : given.elim (.ok default) f = .error failure) :
    ∃ v, given = some v ∧ f v = .error failure := by
  cases given with
  | none => cases h
  | some v => exact ⟨v, rfl, h⟩

/-- Where all steps succeed, so does going through them. -/
theorem exists_mapM {f : ι → Except Failure α} {l : List ι}
    (h : ∀ i ∈ l, ∃ a, f i = .ok a) : ∃ as, l.mapM f = .ok as := by
  induction l with
  | nil => exact ⟨[], rfl⟩
  | cons i l ih =>
    obtain ⟨hi, hl⟩ := List.forall_mem_cons.mp h
    obtain ⟨a, ha⟩ := hi
    obtain ⟨as, has⟩ := ih hl
    rw [List.mapM_cons, ha]
    show ∃ bs, (l.mapM f >>= fun as => pure (a :: as)) = .ok bs
    rw [has]
    exact ⟨a :: as, rfl⟩

/-! ### Outcomes that go alike -/

/-- Both outcomes are the same failure, or both are results that are related. -/
inductive Alike (R : α → β → Prop) : Except Failure α → Except Failure β → Prop
  | failed {failure : Failure} : Alike R (.error failure) (.error failure)
  | succeeded {a : α} {b : β} : R a b → Alike R (.ok a) (.ok b)

namespace Alike

variable {R Q : α → β → Prop} {S : γ → δ → Prop} {x : Except Failure α} {y : Except Failure β}

theorem of_refl {R : α → α → Prop} (h : ∀ a, R a a) (x : Except Failure α) : Alike R x x := by
  cases x with
  | error failure => exact .failed
  | ok a => exact .succeeded (h a)

/-- What goes alike can be compared knowing which outcome the first result is of. -/
theorem with_left (h : Alike R x y) : Alike (fun a b => x = .ok a ∧ R a b) x y := by
  cases h with
  | failed => exact .failed
  | succeeded h => exact .succeeded ⟨rfl, h⟩

theorem mono (h : Alike R x y) (hRQ : ∀ a b, R a b → Q a b) : Alike Q x y := by
  cases h with
  | failed => exact .failed
  | succeeded h => exact .succeeded (hRQ _ _ h)

/-- What goes alike and goes on alike goes alike. -/
theorem bind {f : α → Except Failure γ} {g : β → Except Failure δ} (h : Alike R x y)
    (hfg : ∀ a b, R a b → Alike S (f a) (g b)) : Alike S (x >>= f) (y >>= g) := by
  cases h with
  | failed => exact .failed
  | succeeded h => exact hfg _ _ h

/-- Outcomes that are alike up to what is made of their results are the same once this is made. -/
theorem map_eq {f : α → γ} {g : β → δ} {k : δ → γ}
    (h : Alike (fun a b => f a = k (g b)) x y) : x.map f = (y.map g).map k := by
  cases h with
  | failed => rfl
  | succeeded h => exact congrArg Except.ok h

/-- Lists whose elements go alike go alike. -/
theorem mapM {f : ι → Except Failure α} {g : ι → Except Failure β} {l : List ι}
    (h : ∀ i ∈ l, Alike (fun _ _ => True) (f i) (g i)) :
    Alike (fun _ _ => True) (l.mapM f) (l.mapM g) := by
  induction l with
  | nil => exact .succeeded trivial
  | cons i l ih =>
    rw [List.mapM_cons, List.mapM_cons]
    refine (h i List.mem_cons_self).bind fun _ _ _ => ?_
    refine (ih fun j hj => h j (List.mem_cons_of_mem _ hj)).bind fun _ _ _ => ?_
    exact .succeeded trivial

end Alike

/-! ### What stops -/

/-- An outcome stops with the fault, if there is one, and otherwise has a result as is expected. -/
inductive Stops (P : α → Prop) : Option Failure → Except Failure α → Prop
  | failed {failure : Failure} : Stops P (some failure) (.error failure)
  | succeeded {a : α} : P a → Stops P none (.ok a)

namespace Stops

variable {P : α → Prop} {Q : β → Prop} {fault? : Option Failure} {x : Except Failure α}

/-- What follows cannot stop it. -/
theorem bind {f : α → Except Failure β} (h : Stops P fault? x)
    (hf : ∀ a, P a → ∃ b, f a = .ok b ∧ Q b) : Stops Q fault? (x >>= f) := by
  cases h with
  | failed => exact .failed
  | succeeded ha =>
    obtain ⟨b, hb, hQ⟩ := hf _ ha
    show Stops Q none (f _)
    rw [hb]
    exact .succeeded hQ

theorem ok_iff (h : Stops P fault? x) : (∃ a, x = .ok a ∧ P a) ↔ fault? = none := by
  cases h with
  | failed => simp
  | succeeded ha => simpa using ha

theorem error_iff (h : Stops P fault? x) (failure : Failure) :
    x = .error failure ↔ fault? = some failure := by
  cases h with
  | failed => simp
  | succeeded ha => simp

end Stops

end GrowthAudit.Outcome
