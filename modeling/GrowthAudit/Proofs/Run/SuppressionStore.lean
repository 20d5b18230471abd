import GrowthAudit.Proofs.Run.Coverage

/-!
# The store of suppressions as a set

Suppressions reach the store one by one, or as the comments of a configuration, of which some may be
empty and one may stop the loading.  In between the store is asked.  All that matters of such a
history is the set of the suppressions that it records, and which diagnostics these are about.

* `StoreCall`, `Suppressions.perform`: what the store is asked to do, and what one call does.
* `StoreCall.Records`: what a call records.  Of comments these are the ones in front of the first
  one that fails.
* `Suppressions.covers_perform_iff`, `Suppressions.covers_after_iff`: what one call adds to what is
  covered, and what a history comes to, by induction on its calls.
* `Suppressions.after_isSet`: **the store is the set of what was recorded.**
-/

namespace GrowthAudit

/-! ### Calls -/

/-- What a store is asked to do: to suppress an id everywhere or in the files that match a pattern,
to load comments, and to decide about diagnostics. -/
inductive StoreCall where
  | suppress (id : String)
  | suppressFiles (id pattern : String)
  | load (comments : List SuppressionComment)
  | check (d : Diagnostic)
  | filter (ds : List Diagnostic)

/-- What a store answers: that it is done, why loading stopped, a decision, or what is left of
diagnostics. -/
inductive StoreReply where
  | done
  | failed (failure : Failure)
  | decided (covered : Bool)
  | left (ds : List Diagnostic)

namespace StoreCall

/-- The calls that only ask. -/
def IsQuestion : StoreCall → Prop
  | check _ | filter _ => True
  | _ => False

/-- The suppressions that a call records.  Of comments these are what the ones in front of the first
that fails stand for. -/
inductive Records : StoreCall → Suppression → Prop
  | suppress {id : String} : Records (.suppress id) ⟨id, .everywhere⟩
  | suppressFiles {id pattern : String} :
      Records (.suppressFiles id pattern) ⟨id, .files pattern⟩
  | load {comments front back : List SuppressionComment} {comment : SuppressionComment}
      {entry : Suppression} : comments = front ++ comment :: back →
      (∀ c ∈ front, ∀ failure, ¬ c.Fails failure) → comment.StandsFor entry →
      Records (.load comments) entry

theorem not_records_of_isQuestion {call : StoreCall} (h : call.IsQuestion) (entry : Suppression) :
    ¬ call.Records entry := by
  rintro ⟨⟩ <;> exact h

theorem not_records_load_nil (entry : Suppression) : ¬ (load []).Records entry := by
  intro h
  cases h with
  | load hsplit _ _ => exact absurd hsplit (by simp)

/-- Comments record what the first one stands for and, unless it fails, what the others record. -/
theorem records_load_cons_iff {comment : SuppressionComment} {comments : List SuppressionComment}
    {entry : Suppression} :
    (load (comment :: comments)).Records entry ↔
      comment.StandsFor entry ∨
        (∀ failure, ¬ comment.Fails failure) ∧ (load comments).Records entry := by
  constructor
  · intro h
    cases h with
    | @load _ front back c _ hsplit hfront hentry =>
      cases front with
      | nil =>
        obtain ⟨rfl, rfl⟩ := List.cons.inj hsplit
        exact .inl hentry
      | cons first front =>
        obtain ⟨rfl, rfl⟩ := List.cons.inj hsplit
        obtain ⟨hfirst, hfront⟩ := List.forall_mem_cons.mp hfront
        exact .inr ⟨hfirst, .load rfl hfront hentry⟩
  · rintro (hentry | ⟨hfirst, hrest⟩)
    · exact .load (List.nil_append _).symm (List.forall_mem_nil _) hentry
    · cases hrest with
      | load hsplit hfront hentry =>
        rw [hsplit]
        exact .load (List.cons_append).symm (List.forall_mem_cons.mpr ⟨hfirst, hfront⟩) hentry

/-- The suppressions that some call of a history records. -/
def Recorded (calls : List StoreCall) (entry : Suppression) : Prop :=
  ∃ call ∈ calls, call.Records entry

theorem recorded_cons_iff {call : StoreCall} {calls : List StoreCall} {entry : Suppression} :
    Recorded (call :: calls) entry ↔ call.Records entry ∨ Recorded calls entry :=
  List.exists_mem_cons_iff _ _ _

end StoreCall

namespace Suppressions

/-- What a store answers to a call, and what it is like afterwards. -/
def perform (s : Suppressions) : StoreCall → StoreReply × Suppressions
  | .suppress id => (.done, s.add ⟨id, .everywhere⟩)
  | .suppressFiles id pattern => (.done, s.add ⟨id, .files pattern⟩)
  | .load comments =>
    match s.load comments with
    | (s, none) => (.done, s)
    | (s, some failure) => (.failed failure, s)
  | .check d => (.decided (s.covers d), s)
  | .filter ds => (.left (s.filter ds), s)

/-- The store after a history of calls, the first one first. -/
def after (s : Suppressions) (calls : List StoreCall) : Suppressions :=
  calls.foldl (fun s call => (s.perform call).2) s

variable {s : Suppressions} {d : Diagnostic}

theorem perform_load_snd (comments : List SuppressionComment) :
    (s.perform (.load comments)).2 = (s.load comments).1 := by
  rw [perform]
  split
  next h => rw [h]
  next h => rw [h]

theorem perform_snd_of_isQuestion {call : StoreCall} (h : call.IsQuestion) :
    (s.perform call).2 = s := by
  cases call with
  | check d => rfl
  | filter ds => rfl
  | suppress id => exact h.elim
  | suppressFiles id pattern => exact h.elim
  | load comments => exact h.elim

/-- Comments cover in addition what those suppressions cover that they record, up to the first
comment that fails. -/
theorem covers_load_iff (comments : List SuppressionComment) :
    (s.load comments).1.covers d = true ↔
      s.covers d = true ∨ ∃ entry, (StoreCall.load comments).Records entry ∧ entry.Concerns d := by
  induction comments generalizing s with
  | nil => simp [load, StoreCall.not_records_load_nil]
  | cons comment comments ih =>
    simp only [load, StoreCall.records_load_cons_iff,
      ← SuppressionComment.suppression?_eq_some_iff, ← SuppressionComment.suppression?_eq_error_iff]
    cases comment.suppression? with
    | error failure => simp
    | ok entry? =>
      cases entry? with
      | none => simp [ih]
      | some entry =>
        simp [ih, covers_add, Suppression.covers_iff, or_and_right, exists_or, or_assoc,
          or_left_comm]

/-- Loading fails where some comment fails, with the failure of the first one that does. -/
theorem perform_load_failed_iff {comments : List SuppressionComment} {failure : Failure} :
    (s.perform (.load comments)).1 = .failed failure ↔
      ∃ front comment back, comments = front ++ comment :: back ∧
        (∀ c ∈ front, ∀ failure, ¬ c.Fails failure) ∧ comment.Fails failure := by
  have hreply : (s.perform (.load comments)).1 = .failed failure ↔
      (s.load comments).2 = some failure := by
    rw [perform]
    split
    next h => simp [h]
    next h => simp [h]
  have hfault : (s.load comments).2 = comments.findSome? (·.fault?) :=
    s.load_snd { suppressions := comments }
  rw [hreply, hfault, List.findSome?_eq_some_iff]
  simp only [SuppressionComment.fault?_eq_some_iff, SuppressionComment.fault?_eq_none_iff,
    and_comm (a := SuppressionComment.Fails _ _)]

/-- **One call** adds to what is covered what the suppressions cover that it records. -/
theorem covers_perform_iff (call : StoreCall) :
    (s.perform call).2.covers d = true ↔
      s.covers d = true ∨ ∃ entry, call.Records entry ∧ entry.Concerns d := by
  by_cases hquestion : call.IsQuestion
  · simp [perform_snd_of_isQuestion hquestion, StoreCall.not_records_of_isQuestion hquestion]
  · cases call with
    | suppress id =>
      rw [perform, covers_add, Bool.or_eq_true, Suppression.covers_iff, or_comm]
      refine or_congr_right ⟨fun h => ⟨_, .suppress, h⟩, ?_⟩
      rintro ⟨_, ⟨⟩, h⟩
      exact h
    | suppressFiles id pattern =>
      rw [perform, covers_add, Bool.or_eq_true, Suppression.covers_iff, or_comm]
      refine or_congr_right ⟨fun h => ⟨_, .suppressFiles, h⟩, ?_⟩
      rintro ⟨_, ⟨⟩, h⟩
      exact h
    | load comments =>
      rw [perform_load_snd]
      exact covers_load_iff comments
    | check d => exact absurd trivial hquestion
    | filter ds => exact absurd trivial hquestion

/-- **A history** adds to what is covered what the suppressions cover that its calls record. -/
theorem covers_after_iff (calls : List StoreCall) :
    (s.after calls).covers d = true ↔
      s.covers d = true ∨ ∃ entry, StoreCall.Recorded calls entry ∧ entry.Concerns d := by
  induction calls generalizing s with
  | nil => simp [after, StoreCall.Recorded]
  | cons call calls ih =>
    have hstep : s.after (call :: calls) = (s.perform call).2.after calls := rfl
    rw [hstep, ih, covers_perform_iff]
    simp only [StoreCall.recorded_cons_iff, or_and_right, exists_or, or_assoc]

theorem after_append (calls more : List StoreCall) :
    s.after (calls ++ more) = (s.after calls).after more :=
  List.foldl_append

/-- **The store is the set of what was recorded.**  Whatever it has been asked to do, it covers a
diagnostic iff a suppression that was recorded is about it.  Loading fails with the first comment
that fails, and what the comments in front of it stand for is recorded.  So neither the order nor
the repetition of what is recorded matters, nothing that is covered is uncovered by what is done
later, and questions leave the store as it is. -/
theorem after_isSet (calls : List StoreCall) :
    (∀ d, (after {} calls).covers d = true ↔
        ∃ entry, StoreCall.Recorded calls entry ∧ entry.Concerns d) ∧
      (∀ comments failure, ((after {} calls).perform (.load comments)).1 = .failed failure ↔
        ∃ front comment back, comments = front ++ comment :: back ∧
          (∀ c ∈ front, ∀ failure, ¬ c.Fails failure) ∧ comment.Fails failure) ∧
      (∀ calls', (∀ entry, StoreCall.Recorded calls entry ↔ StoreCall.Recorded calls' entry) →
        ∀ d, (after {} calls).covers d = (after {} calls').covers d) ∧
      (∀ more d, (after {} calls).covers d = true → (after {} (calls ++ more)).covers d = true) ∧
      ∀ question : StoreCall, question.IsQuestion → ∀ more,
        after {} (calls ++ question :: more) = after {} (calls ++ more) := by
  have hcovers : ∀ calls d, (after {} calls).covers d = true ↔
      ∃ entry, StoreCall.Recorded calls entry ∧ entry.Concerns d := by
    intro calls d
    have hempty : ¬ ({} : Suppressions).covers d = true := by simp [covers]
    rw [covers_after_iff, or_iff_right hempty]
  refine ⟨hcovers calls, fun comments failure => perform_load_failed_iff, ?_, ?_, ?_⟩
  · intro calls' hsame d
    rw [Bool.eq_iff_iff, hcovers, hcovers]
    simp only [hsame]
  · intro more d hd
    rw [after_append, covers_after_iff]
    exact .inl hd
  · intro question hquestion more
    rw [after_append, after_append]
    exact congrArg (after · more) (perform_snd_of_isQuestion hquestion)

/-- Comments without an id, at line 9 of a file, for all ids in a file, at a line that is no number,
and everywhere. -/
def commentsSample : List SuppressionComment :=
  [{ file := "a.cpp", line := .str "x" }, { id := "style", file := "a.cpp", line := .str " 9 " },
    { id := "*", file := "b.cpp", line := .int 0 },
    { id := "style", file := "c.cpp", line := .str "x" }, { id := "style" }]

/-- A diagnostic at line 10. -/
def styleSample : Diagnostic :=
  { id := "style", message := "m", severity := .style, location := ⟨"a.cpp", 10, 1⟩ }

/-- The comments are loaded between two other calls, of which the first only asks. -/
def historySample : List StoreCall :=
  [.check styleSample, .load commentsSample, .suppressFiles "style" "lib/*"]

/-- Line 10 is covered by the comment above it, in whatever order and however often the calls are
made; loading fails at the fourth comment. -/
theorem after_isSet_sample :
    (∀ entry, StoreCall.Recorded historySample entry ↔
        StoreCall.Recorded (historySample.reverse ++ historySample) entry) ∧
      StoreCall.Recorded historySample ⟨"style", .line "a.cpp" 9⟩ ∧
      ((after {} historySample).perform (.load commentsSample)).1 =
        .failed (.badLine "x" .notANumber) ∧
      (StoreCall.check styleSample).IsQuestion ∧
      (after {} historySample).covers styleSample = true ∧
      (after {} (historySample.reverse ++ historySample)).covers styleSample = true ∧
      (after {} (historySample ++ [.check styleSample, .suppress "other"])).covers styleSample =
        true := by
  obtain ⟨hcovers, hfailed, hsame, hmore, hasked⟩ := after_isSet historySample
  have hset : ∀ entry, StoreCall.Recorded historySample entry ↔
      StoreCall.Recorded (historySample.reverse ++ historySample) entry := by
    intro entry
    simp only [StoreCall.Recorded, List.mem_append, List.mem_reverse, or_self]
  have hnine : SuppressionComment.lineNumber (.str " 9 ") = .ok 9 := rfl
  have hx : SuppressionComment.lineNumber (.str "x") = .error (.badLine "x" .notANumber) := rfl
  have hfirst : ∀ c ∈ commentsSample.take 1, ∀ failure, ¬ c.Fails failure := by
    intro c hc failure hfails
    rw [List.mem_singleton.mp hc] at hfails
    exact hfails.id rfl
  have hthree : ∀ c ∈ commentsSample.take 3, ∀ failure, ¬ c.Fails failure := by
    intro c hc failure hfails
    simp only [commentsSample, List.take_succ_cons, List.take_zero, List.mem_cons, List.not_mem_nil,
      or_false] at hc
    rcases hc with rfl | rfl | rfl
    · exact hfails.id rfl
    · cases hfails.line
    · cases hfails.given
  have hrecorded : StoreCall.Recorded historySample ⟨"style", .line "a.cpp" 9⟩ :=
    ⟨.load commentsSample, by simp [historySample],
      @StoreCall.Records.load _ (commentsSample.take 1) _ _ _ rfl hfirst
        (.line (by decide) (by decide) rfl hnine)⟩
  have hcovered := (hcovers styleSample).mpr
    ⟨_, hrecorded, .inl rfl, .line rfl (.inr rfl)⟩
  refine ⟨hset, hrecorded, ?_, trivial, hcovered, ?_, ?_⟩
  · exact (hfailed _ _).mpr ⟨_, _, _, rfl, hthree, by decide, by decide, rfl, hx⟩
  · rw [← hsame _ hset]
    exact hcovered
  · rw [hasked (.check styleSample) trivial]
    exact hmore _ _ hcovered

end Suppressions

end GrowthAudit
