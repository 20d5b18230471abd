import GrowthAudit.Dump.ContainerUse
import GrowthAudit.Proofs.Dump.Answers

/-!
# Where verdicts are settled

Record types are remembered, and a record that is met while it is being built is incomplete.  So
what a record looks like may depend on what was asked before: a record that is built inside another
one lacks that one's definition, and it stays like this.

* `Configuration.VerdictsSettled`: earlier questions change no verdict, neither that on a record nor
  those at the uses of containers.
* `Configuration.OnlyStaticCycles.settled`: this is so where no record that is contained in another
  one leads back to it.  Then whatever is remembered is whole
  (`Configuration.remembers_memoAfter`, by induction on the questions), and whole answers agree.
-/

namespace GrowthAudit

/-- A question to a configuration. -/
inductive Query where
  | record (i : Nat)
  | name (name : String)
  | member (v : Variable)
  | tokens (ts : List Token)

namespace Configuration

/-- What a question is about. -/
def resolve (c : Configuration) : Query → Resolution
  | .record i => .record i
  | .name name => c.lookupName name
  | .member v => c.lookupVariable v
  | .tokens ts => c.lookupTokens ts

/-- What is remembered after some questions, the first one first. -/
def memoAfter (c : Configuration) (queries : List Query) : Memo :=
  queries.foldl (fun memo q => (c.typeOf (c.resolve q) memo).2) []

/-- The verdicts on records and at the uses of containers are those that are given if nothing was
asked before. -/
def VerdictsSettled (c : Configuration) : Prop :=
  ∀ queries, (∀ i, (c.recordType i (c.memoAfter queries)).1.degrades =
      (c.recordType i []).1.degrades) ∧
    ∀ containers,
      (c.containerSites containers (c.memoAfter queries)).1.map (·.element.degrades) =
        (ContainerUse.all c.tokens containers).map fun u =>
          (c.typeOf (c.lookupTokens u.element) []).1.degrades

theorem plain_resolve (c : Configuration) (q : Query) : (c.resolve q).Plain := by
  cases q with
  | record i => exact Resolution.plain_record i
  | name name => exact (c.found_lookupName name).plain
  | member v => exact (c.found_lookupVariable v).plain
  | tokens ts => exact (c.found_lookupTokens ts).plain

variable {c : Configuration}

/-- What holds of the empty memory and is kept by every question holds whatever was asked. -/
theorem memoAfter_invariant {I : Memo → Prop} (hnil : I [])
    (hkeep : ∀ q memo, I memo → I (c.typeOf (c.resolve q) memo).2) (queries : List Query) :
    I (c.memoAfter queries) :=
  List.foldlRecOn queries _ hnil fun memo hmemo q _ => hkeep q memo hmemo

/-! ### Where all cycles are static -/

section

variable (hkeys : Function.Injective c.keyOf) (hstatic : c.OnlyStaticCycles)

include hkeys hstatic

theorem remembers_memoAfter (queries : List Query) :
    c.Remembers (fun _ => False) (c.memoAfter queries) :=
  memoAfter_invariant (remembers_nil _)
    (fun q _ hmemo => (typeOf_whole hkeys hstatic (c.plain_resolve q) hmemo).2) queries

theorem degrades_typeOf_eq {r : Resolution} (hplain : r.Plain) {memo : Memo}
    (hmemo : c.Remembers (fun _ => False) memo) :
    (c.typeOf r memo).1.degrades = (c.typeOf r []).1.degrades :=
  (typeOf_whole hkeys hstatic hplain hmemo).1.degrades_eq
    (typeOf_whole hkeys hstatic hplain (remembers_nil _)).1

theorem degrades_containerSites_eq (containers : List String) {memo : Memo}
    (hmemo : c.Remembers (fun _ => False) memo) :
    (c.containerSites containers memo).1.map (·.element.degrades) =
      (ContainerUse.all c.tokens containers).map fun u =>
        (c.typeOf (c.lookupTokens u.element) []).1.degrades := by
  rw [containerSites]
  induction ContainerUse.all c.tokens containers generalizing memo with
  | nil => rfl
  | cons u us ih =>
    have hplain := (c.found_lookupTokens u.element).plain
    rw [Memo.traverse, List.map_cons, List.map_cons]
    refine congrArg₂ List.cons (degrades_typeOf_eq hkeys hstatic hplain hmemo) ?_
    exact ih (typeOf_whole hkeys hstatic hplain hmemo).2

theorem OnlyStaticCycles.settled : c.VerdictsSettled := by
  intro queries
  have hmemo := remembers_memoAfter hkeys hstatic queries
  exact ⟨fun i => degrades_typeOf_eq hkeys hstatic (Resolution.plain_record i) hmemo,
    fun containers => degrades_containerSites_eq hkeys hstatic containers hmemo⟩

end

end Configuration

end GrowthAudit
