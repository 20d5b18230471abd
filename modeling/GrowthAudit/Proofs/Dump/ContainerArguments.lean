import GrowthAudit.Proofs.Dump.FirstUses
import GrowthAudit.Proofs.Dump.LinkShortcuts
import GrowthAudit.Proofs.Dump.WrittenRows

/-!
# Arguments of containers

What is read back from a use of a container: its name with all qualifiers, and behind it template
arguments between commas, of which the first one is the element type.  The arguments may contain
further uses, which are uses of their own.

* `ContainerUse.Written`: how a use is written.
* `ContainerUse.firstArgument?_of_joined`: the first argument ends at the first comma outside
  brackets, or at the bracket that closes the list.
* `ContainerUse.Written.stands`: a use that is written stands at its place, wherever that is.
* `ContainerUse.exists_all_eq`: the first use at its location is kept behind those in front of it.
* `Configuration.containerSites_written`: **there is one site at the location of the use**, and it
  is that of the use unless a token in front has the same location.
-/

namespace GrowthAudit

namespace ContainerUse

/-! ### How uses are written -/

/-- A template argument as it is written. -/
structure Argument (row : List Token) : Prop where
  commaless : Token.Commaless row
  ne_nil : row ≠ []
  unended : ∀ t ∈ row, t.isOneOf [";", "\x7b", "\x7d"] = false

/-- A use as it is written, from the first qualifier to the bracket that closes the arguments. -/
structure Written where
  qualifiers : List Token
  path : List Token
  name : Token
  opening : Token
  first : List Token
  others : List (List Token)
  arguments : List Token
  closing : Token
  path_qualifying : Token.Qualifying qualifiers path
  opening_text : opening.text = "<"
  arguments_joined : Token.CommaJoined (first :: others) arguments
  arguments_argument : ∀ row ∈ first :: others, Argument row
  closing_text : closing.text = ">"

/-- The tokens of a use. -/
def Written.tokens (u : Written) : List Token :=
  u.path ++ u.name :: u.opening :: (u.arguments ++ [u.closing])

/-- The components of the name that is used. -/
def Written.components (u : Written) : List String :=
  u.qualifiers.map (·.text) ++ [u.name.text]

/-! ### The first argument -/

variable {o c t : Token} {inner row first ts rest : List Token} {others : List (List Token)}
  {depth : Nat}

/-- Brackets are passed over with what is between them, if that is. -/
theorem firstArgument?_bracket (ho : o.isOneOf ["<", "("] = true)
    (hc : c.isOneOf [">", ")"] = true)
    (hinner : ∀ us, firstArgument? (depth + 1) (inner ++ us) =
      (firstArgument? (depth + 1) us).map (inner ++ ·)) :
    firstArgument? depth (o :: (inner ++ c :: ts)) =
      (firstArgument? depth ts).map (fun rest => o :: (inner ++ c :: rest)) := by
  rw [firstArgument?_opening ho, hinner, firstArgument?_closing hc, if_neg (Nat.succ_ne_zero depth),
    Nat.add_sub_cancel, Option.map_map, Option.map_map]
  rfl

/-- A token that is no bracket, comma or end is passed over. -/
theorem firstArgument?_passed (hopen : t.isOneOf ["<", "("] = false)
    (hclose : t.isOneOf [">", ")"] = false) (hcomma : ¬ (t.text = "," ∧ depth = 0))
    (hend : t.isOneOf [";", "\x7b", "\x7d"] = false) :
    firstArgument? depth (t :: ts) = (firstArgument? depth ts).map (t :: ·) := by
  rw [firstArgument?_other hopen hclose, if_neg hcomma, hend, if_neg Bool.false_ne_true]

theorem forall_mem_bracket {P : Token → Prop}
    (h : ∀ t ∈ o :: (inner ++ c :: rest), P t) : (∀ t ∈ inner, P t) ∧ ∀ t ∈ rest, P t := by
  obtain ⟨-, h⟩ := List.forall_mem_cons.mp h
  obtain ⟨hinner, h⟩ := List.forall_mem_append.mp h
  exact ⟨hinner, (List.forall_mem_cons.mp h).2⟩

/-- Inside brackets a nested row is passed over, whatever commas it has. -/
theorem firstArgument?_nested (h : Token.Nested inner)
    (hend : ∀ t ∈ inner, t.isOneOf [";", "\x7b", "\x7d"] = false) :
    firstArgument? (depth + 1) (inner ++ ts) =
      (firstArgument? (depth + 1) ts).map (inner ++ ·) := by
  induction h generalizing depth ts with
  | nil => exact (congrFun Option.map_id _).symm
  | @other t rest hopen hclose _ ih =>
    obtain ⟨ht, hrest⟩ := List.forall_mem_cons.mp hend
    have hinside : ¬ (t.text = "," ∧ depth + 1 = 0) := fun hcut => Nat.succ_ne_zero depth hcut.2
    rw [List.cons_append, firstArgument?_passed hopen hclose hinside ht, ih hrest, Option.map_map]
    rfl
  | bracket ho hc _ _ ihinner ihrest =>
    obtain ⟨hinner, hrest⟩ := forall_mem_bracket hend
    rw [List.cons_append, List.append_assoc, List.cons_append,
      firstArgument?_bracket ho hc (fun _ => ihinner hinner), ihrest hrest, Option.map_map]
    simp [Function.comp_def]

/-- An argument is passed over. -/
theorem firstArgument?_commaless (h : Token.Commaless row)
    (hend : ∀ t ∈ row, t.isOneOf [";", "\x7b", "\x7d"] = false) :
    firstArgument? 0 (row ++ ts) = (firstArgument? 0 ts).map (row ++ ·) := by
  induction h generalizing ts with
  | nil => exact (congrFun Option.map_id _).symm
  | other hopen hclose hcomma _ ih =>
    obtain ⟨ht, hrest⟩ := List.forall_mem_cons.mp hend
    rw [List.cons_append, firstArgument?_passed hopen hclose (fun hcut => hcomma hcut.1) ht,
      ih hrest, Option.map_map]
    rfl
  | bracket ho hc hinner _ ih =>
    obtain ⟨hinside, hrest⟩ := forall_mem_bracket hend
    rw [List.cons_append, List.append_assoc, List.cons_append,
      firstArgument?_bracket ho hc (fun _ => firstArgument?_nested hinner hinside), ih hrest,
      Option.map_map]
    simp [Function.comp_def]

theorem firstArgument?_comma (ht : t.text = ",") : firstArgument? 0 (t :: ts) = some [] := by
  have hbracket := Token.isOneOf_singleton.mpr ht
  rw [firstArgument?_other (Token.isOneOf_eq_false hbracket (by decide))
    (Token.isOneOf_eq_false hbracket (by decide)), if_pos ⟨ht, rfl⟩]

/-- **The first of the arguments is found**, if the list of arguments ends behind them. -/
theorem firstArgument?_of_joined (h : Token.CommaJoined (first :: others) ts)
    (hfirst : Argument first) (hrest : firstArgument? 0 rest = some []) :
    firstArgument? 0 (ts ++ rest) = some first := by
  cases h with
  | single =>
    rw [firstArgument?_commaless hfirst.commaless hfirst.unended, hrest, Option.map_some,
      List.append_nil]
  | cons hcomma _ =>
    rw [List.append_assoc, firstArgument?_commaless hfirst.commaless hfirst.unended,
      List.cons_append, firstArgument?_comma hcomma, Option.map_some, List.append_nil]

/-! ### Where a use stands -/

/-- Qualifiers are found in front of what they qualify, the last one first. -/
theorem followsQualifiers_append {qualifiers path before : List Token} {qs : List String}
    (h : Token.Qualifying qualifiers path) :
    followsQualifiers ((qualifiers.map (·.text)).reverse ++ qs) (path.reverse ++ before) =
      followsQualifiers qs before := by
  induction h generalizing qs before with
  | nil => rfl
  | @cons q colons qualifiers path hcolons _ ih =>
    have hq : followsQualifiers (q.text :: qs) (colons :: q :: before) =
        followsQualifiers qs before := by
      simp [followsQualifiers, Token.textOf, hcolons]
    rw [List.map_cons, List.reverse_cons, List.append_assoc, List.singleton_append,
      List.reverse_cons, List.reverse_cons, List.append_assoc, List.append_assoc,
      List.singleton_append, List.singleton_append, ih, hq]

namespace Written

variable (u : Written) {name : String} {front back : List Token}

theorem nameParts_eq (hname : Text.components name = u.components) :
    nameParts name = (u.name.text, (u.qualifiers.map (·.text)).reverse) := by
  rw [nameParts, hname, components, List.reverse_append, List.reverse_singleton,
    List.singleton_append]

/-- The opening bracket is linked to the closing one, or not at all. -/
def WellLinked (front : List Token) : Prop :=
  u.opening.link ∈ [none, some (front.length + u.path.length + 2 + u.arguments.length)]

theorem append_tokens : front ++ (u.tokens ++ back) =
    (front ++ u.path) ++ u.name :: (u.opening :: (u.arguments ++ u.closing :: back)) := by
  simp [tokens]

/-- The tokens in front of the arguments. -/
def head (front : List Token) : List Token := front ++ u.path ++ [u.name]

theorem length_head : (u.head front).length = front.length + u.path.length + 1 := by
  simp only [head, List.length_append, List.length_singleton]

theorem append_tokens_head : front ++ (u.tokens ++ back) =
    u.head front ++ u.opening :: (u.arguments ++ u.closing :: back) := by
  simp [tokens, head]

theorem getElem?_name :
    (front ++ (u.tokens ++ back))[front.length + u.path.length]? = some u.name := by
  rw [u.append_tokens, ← List.length_append, Token.getElem?_append_cons]

theorem getElem?_opening :
    (front ++ (u.tokens ++ back))[front.length + u.path.length + 1]? = some u.opening := by
  rw [u.append_tokens_head, ← u.length_head, Token.getElem?_append_cons]

/-- The first argument is found with the link and without it. -/
theorem firstArgument?_between (hlink : u.WellLinked front) :
    firstArgument? 0 (Token.between (front ++ (u.tokens ++ back))
      (front.length + u.path.length + 1) u.opening.link) = some u.first := by
  have hfirst := u.arguments_argument u.first List.mem_cons_self
  rw [u.append_tokens_head, ← u.length_head]
  rcases List.mem_pair.mp hlink with hlink | hlink
  · -- the search comes to the closing bracket
    have hclose : firstArgument? 0 (u.closing :: back) = some [] := by
      rw [firstArgument?_closing (by simp [Token.isOneOf, u.closing_text]), if_pos rfl]
    rw [hlink, Token.between, List.drop_append, List.drop_eq_nil_of_le (Nat.le_succ _),
      Nat.add_sub_cancel_left, List.nil_append, List.drop_succ_cons, List.drop_zero]
    exact firstArgument?_of_joined u.arguments_joined hfirst hclose
  · -- only the arguments are searched
    have hlinked : u.opening.link = some ((u.head front).length + 1 + u.arguments.length) := by
      rw [hlink, u.length_head]
    have hall : firstArgument? 0 (u.arguments ++ []) = some u.first :=
      firstArgument?_of_joined u.arguments_joined hfirst rfl
    rw [List.append_nil] at hall
    rw [hlinked, Token.between_append_cons, hall]

/-- **A use that is written stands at its place.** -/
theorem stands (hname : Text.components name = u.components) (hlink : u.WellLinked front) :
    Stands (front ++ (u.tokens ++ back)) name (front.length + u.path.length) u.first := by
  have hparts := u.nameParts_eq hname
  refine
    { inside := (List.getElem?_eq_some_iff.mp u.getElem?_name).1
      text := ?_
      qualifiers := ?_
      bracket := ?_
      argument := ?_
      nonempty := (u.arguments_argument u.first List.mem_cons_self).ne_nil }
  · rw [u.getElem?_name, hparts]
    rfl
  · have hfollows :
        followsQualifiers ((u.qualifiers.map (·.text)).reverse ++ [])
          (u.path.reverse ++ front.reverse) = followsQualifiers [] front.reverse :=
      followsQualifiers_append u.path_qualifying
    rw [u.append_tokens, ← List.length_append, List.take_left, List.reverse_append, hparts]
    rw [List.append_nil] at hfollows
    exact hfollows
  · rw [u.getElem?_opening]
    exact u.opening_text
  · rw [u.getElem?_opening, Option.bind_some]
    exact u.firstArgument?_between hlink

/-- A use that is written is found at its place. -/
theorem at?_eq (hname : Text.components (Text.unrooted name) = u.components)
    (hlink : u.WellLinked front) :
    at? (front ++ (u.tokens ++ back)) [Text.unrooted name] (front.length + u.path.length) =
      some ⟨Text.unrooted name, u.first, u.name.location⟩ := by
  rw [at?_singleton (u.stands hname hlink), u.getElem?_name]
  rfl

end Written

/-! ### The turn of a use -/

/-- The uses in front of a position. -/
def before (ts : List Token) (containers : List String) (i : Nat) : List ContainerUse :=
  distinct [] ((List.range i).filterMap (at? ts (containers.map Text.unrooted)))

/-- A use at a location that was not met before is kept behind those in front of it. -/
theorem exists_distinct_append_cons {seen : List Location} {u : ContainerUse}
    {us : List ContainerUse} (hseen : u.location ∉ seen)
    (hus : ∀ v ∈ us, v.location ≠ u.location) (us' : List ContainerUse) :
    ∃ later, distinct seen (us ++ u :: us') = distinct seen us ++ u :: later := by
  induction us generalizing seen with
  | nil =>
    have hcontains : seen.contains u.location ≠ true := fun h => hseen (List.contains_iff_mem.mp h)
    exact ⟨distinct (u.location :: seen) us', if_neg hcontains⟩
  | cons v us ih =>
    obtain ⟨hv, hus⟩ := List.forall_mem_cons.mp hus
    rw [List.cons_append, distinct, distinct]
    split
    · exact ih hseen hus
    · obtain ⟨later, hlater⟩ := ih (List.not_mem_cons_of_ne_of_not_mem hv.symm hseen) hus
      exact ⟨later, by rw [hlater, List.cons_append]⟩

/-- The first use at its location is kept behind those in front of it. -/
theorem exists_all_eq {ts : List Token} {containers : List String} {i : Nat} {u : ContainerUse}
    (hu : at? ts (containers.map Text.unrooted) i = some u)
    (hfirst : ∀ j < i, Token.locationOf ts[j]? ≠ u.location) :
    ∃ later, all ts containers = before ts containers i ++ u :: later := by
  obtain ⟨k, hk⟩ := Nat.exists_eq_add_of_lt (isAt_of_at? hu).stands.inside
  have hrange : List.range ts.length =
      List.range i ++ i :: (List.range k).map (fun j => i + (j + 1)) := by
    rw [hk, Nat.add_assoc, List.range_add, List.range_succ_eq_map, List.map_cons, List.map_map]
    rfl
  have hfront : ∀ v ∈ (List.range i).filterMap (at? ts (containers.map Text.unrooted)),
      v.location ≠ u.location := by
    intro v hv
    obtain ⟨j, hj, hat⟩ := List.mem_filterMap.mp hv
    rw [(isAt_of_at? hat).location]
    exact hfirst j (List.mem_range.mp hj)
  rw [all, hrange, List.filterMap_append, List.filterMap_cons_some hu]
  exact exists_distinct_append_cons List.not_mem_nil hfront _

end ContainerUse

theorem Memo.traverse_append (f : α → Memo → β × Memo) (as as' : List α) (memo : Memo) :
    (Memo.traverse f (as ++ as') memo).1 = (Memo.traverse f as memo).1 ++
      (Memo.traverse f as' (Memo.traverse f as memo).2).1 := by
  induction as generalizing memo with
  | nil => rfl
  | cons a as ih => exact congrArg ((f a memo).1 :: ·) (ih (f a memo).2)

namespace Configuration

open ContainerUse

variable {c : Configuration} {name : String} {front back : List Token}

/-- The first use at its location has its site behind those of the uses in front of it, and the type
of its element is built with what these have left behind. -/
theorem exists_containerSites_eq {containers : List String} {i : Nat} {u : ContainerUse}
    (hu : at? c.tokens (containers.map Text.unrooted) i = some u)
    (hfirst : ∀ j < i, Token.locationOf c.tokens[j]? ≠ u.location) (memo : Memo) :
    ∃ sites memo' later, Memo.Thread c.SiteRun (before c.tokens containers i) memo sites memo' ∧
      (c.containerSites containers memo).1 = sites ++
        ⟨u.container, (c.typeOf (c.lookupTokens u.element) memo').1, u.location⟩ :: later := by
  obtain ⟨later, hall⟩ := exists_all_eq hu hfirst
  rw [containerSites, hall, Memo.traverse_append]
  exact ⟨_, _, _, .of_traverse (fun _ _ => .mk) _ _, rfl⟩

/-- **A use that is written is read back**, wherever it stands: it has one site at its location, and
if no token in front of it has that location, the element of the site is the first of the arguments,
with the type that is built for it when the uses in front have had their turn. -/
theorem containerSites_written (u : ContainerUse.Written)
    (hname : Text.components (Text.unrooted name) = u.components)
    (htokens : c.tokens = front ++ (u.tokens ++ back)) (hlink : u.WellLinked front) (memo : Memo) :
    (c.locationsOf [name] memo).count u.name.location = 1 ∧
      ((∀ t ∈ front ++ u.path, t.location ≠ u.name.location) →
        ∃ sites memo' later,
          Memo.Thread c.SiteRun (before c.tokens [name] (front.length + u.path.length)) memo sites
            memo' ∧
          (c.containerSites [name] memo).1 = sites ++
            ⟨Text.unrooted name, (c.typeOf (c.lookupTokens u.first) memo').1, u.name.location⟩ ::
              later) := by
  have hat : at? c.tokens ([name].map Text.unrooted) (front.length + u.path.length) =
      some ⟨Text.unrooted name, u.first, u.name.location⟩ := by
    rw [htokens]
    exact u.at?_eq hname hlink
  constructor
  · rw [locationsOf_eq]
    exact List.count_eq_one_of_mem (nodup_location_distinct _ _)
      (mem_location_all.mpr ⟨_, _, hat, rfl⟩)
  · intro hfront
    refine exists_containerSites_eq hat (fun j hj => ?_) memo
    have hlt : j < (front ++ u.path).length := by rwa [List.length_append]
    rw [htokens, u.append_tokens, List.getElem?_append_left hlt, List.getElem?_eq_getElem hlt]
    exact hfront _ (List.getElem_mem hlt)

/-- A token in the first line of a file. -/
def placed (column : Int) (text : String) : Token := { text, location := ⟨"a.cpp", 1, column⟩ }

/-- `std::vector<int>` -/
def innerSample : ContainerUse.Written where
  qualifiers := [placed 13 "std"]
  path := [placed 13 "std", placed 16 "::"]
  name := placed 18 "vector"
  opening := placed 24 "<"
  first := [placed 25 "int"]
  others := []
  arguments := [placed 25 "int"]
  closing := placed 28 ">"
  path_qualifying := .cons rfl .nil
  opening_text := rfl
  arguments_joined := .single
  arguments_argument := List.forall_mem_singleton.mpr
    { commaless := .other rfl rfl (by decide) .nil
      ne_nil := by decide
      unended := by decide }
  closing_text := rfl

/-- `std::vector<std::vector<int>, A>`, with links between the outer brackets. -/
def outerSample : ContainerUse.Written where
  qualifiers := [placed 1 "std"]
  path := [placed 1 "std", placed 4 "::"]
  name := placed 6 "vector"
  opening := { placed 12 "<" with link := some 12 }
  first := innerSample.tokens
  others := [[placed 31 "A"]]
  arguments := innerSample.tokens ++ placed 29 "," :: [placed 31 "A"]
  closing := { placed 32 ">" with link := some 3 }
  path_qualifying := .cons rfl .nil
  opening_text := rfl
  arguments_joined := .cons rfl .single
  arguments_argument := by
    have hlist : Token.Commaless (placed 24 "<" :: ([placed 25 "int"] ++ placed 28 ">" :: [])) :=
      .bracket rfl rfl (.other rfl rfl .nil) .nil
    rw [List.forall_mem_cons, List.forall_mem_singleton]
    constructor
    · exact
        { commaless := .other rfl rfl (by decide) (.other rfl rfl (by decide)
            (.other rfl rfl (by decide) hlist))
          ne_nil := by decide
          unended := by decide }
    · exact
        { commaless := .other rfl rfl (by decide) .nil
          ne_nil := by decide
          unended := by decide }
  closing_text := rfl

/-- `std::vector<std::vector<int>, A>` and nothing else. -/
def nestedUseSample : Configuration := { tokens := outerSample.tokens }

/-- The inner use has a site of its own behind that of the outer one. -/
theorem containerSites_written_sample :
    Text.components (Text.unrooted "::std::vector") = innerSample.components ∧
      nestedUseSample.tokens = outerSample.tokens.take 4 ++
        (innerSample.tokens ++ outerSample.tokens.drop 10) ∧
      innerSample.WellLinked (outerSample.tokens.take 4) ∧
      (nestedUseSample.locationsOf ["::std::vector"] []).count innerSample.name.location = 1 ∧
      (∃ sites memo' later,
        (nestedUseSample.containerSites ["::std::vector"] []).1 = sites ++
          ⟨"std::vector", (nestedUseSample.typeOf (nestedUseSample.lookupTokens [placed 25 "int"])
            memo').1, innerSample.name.location⟩ :: later) ∧
      (nestedUseSample.containerSites ["::std::vector"] []).1.map
          (fun s => (s.element.name, s.location.column)) =
        [("std::vector<int>", 6), ("int", 18)] := by
  have hname : Text.components (Text.unrooted "::std::vector") = innerSample.components := by
    decide +kernel
  have htokens : nestedUseSample.tokens = outerSample.tokens.take 4 ++
    (innerSample.tokens ++ outerSample.tokens.drop 10) := by decide
  have hlink : innerSample.WellLinked (outerSample.tokens.take 4) := List.mem_cons_self
  have hfirst : ∀ t ∈ outerSample.tokens.take 4 ++ innerSample.path,
    t.location ≠ innerSample.name.location := by decide
  obtain ⟨hcount, hturn⟩ := containerSites_written innerSample hname htokens hlink []
  obtain ⟨sites, memo', later, -, hsites⟩ := hturn hfirst
  exact ⟨hname, htokens, hlink, hcount, ⟨sites, memo', later, hsites⟩, by decide +kernel⟩

end Configuration

end GrowthAudit
