import GrowthAudit.Text.Integer

/-!
# Command line arguments

The arguments of the program: a dump file and options.  A long option may be cut short as long as
one option alone starts like it, and its value may follow an equals sign, where two hyphens stand
for an empty value.  Short options take no value and may stand together, also with an equals sign
behind the first.  Two hyphens end the options.  What looks like a negative number, or has hyphens
in front and a space in it, is no option.

`Arguments.parse` first sorts the words and then goes through them once.  Words that nothing takes
are an error only at the end, and a call for help counts where it stands.
-/

namespace GrowthAudit

inductive Flag where
  | help
  | output
  | maxDepth
  | container
  | suppress
  | listCheckers
  | verbose
  deriving DecidableEq, Repr

inductive OutputFormat where
  | json
  | gcc
  | summary
  deriving DecidableEq, Repr, Inhabited

structure Arguments where
  dumpFile : Option String := none
  output : OutputFormat := .json
  /-- The depth, `some none` if the value of the option is empty. -/
  maxDepth : Option (Option Int) := none
  /-- The names of containers, `none` for an empty value. -/
  containers : List (Option String) := []
  suppress : List String := []
  listCheckers : Bool := false
  verbosity : Nat := 0
  deriving DecidableEq, Repr, Inhabited

/-- Why the program does not go on after reading its arguments. -/
inductive ArgumentStop where
  | usage
  | help
  deriving DecidableEq, Repr

namespace Flag

/-- The spellings of the options. -/
def spellings : List (String × Flag) :=
  [("-h", help), ("--help", help), ("--output", output), ("--max-depth", maxDepth),
   ("--container", container), ("--suppress", suppress), ("--list-checkers", listCheckers),
   ("-v", verbose), ("--verbose", verbose)]

/-- How many words an option takes. -/
inductive Arity where
  | zero
  | one
  | many
  deriving DecidableEq, Repr

def arity : Flag → Arity
  | help | listCheckers | verbose => .zero
  | output | maxDepth | container => .one
  | suppress => .many

end Flag

/-- What a word is.  The word of an option may hold more behind an equals sign or, if the option is
a short one, directly. -/
inductive Word where
  | plain (text : String)
  | separator
  | flag (flag : Flag) (isLong : Bool) (attached : Option String)
  | unknown
  deriving DecidableEq, Repr

namespace Word

/-- A text cut at its first equals sign. -/
def splitEquals (cs : List Char) : List Char × Option String :=
  match cs.dropWhile (· ≠ '=') with
  | [] => (cs, none)
  | _ :: value => (cs.takeWhile (· ≠ '='), some (String.ofList value))

/-- A hyphen and digits, with at most one point that has digits behind it. -/
def isNegativeNumber (cs : List Char) : Bool :=
  match cs with
  | '-' :: rest =>
    let rest := if rest.getLast? = some '\n' then rest.dropLast else rest
    let whole := rest.takeWhile Text.isDigit
    match rest.dropWhile Text.isDigit with
    | [] => !whole.isEmpty
    | '.' :: places => !places.isEmpty && places.all Text.isDigit
    | _ => false
  | _ => false

/-- The options that a word may be short for.  One hyphen and a letter may be followed by more short
options. -/
def candidates (cs : List Char) : List Word :=
  match cs with
  | '-' :: '-' :: _ =>
    let (start, attached) := splitEquals cs
    (Flag.spellings.filter fun s => start.isPrefixOf s.1.toList).map fun s =>
      .flag s.2 true attached
  | '-' :: c :: rest =>
    (Flag.spellings.filter fun s => s.1.toList = ['-', c]).map fun s =>
      .flag s.2 false (some (String.ofList rest))
  | _ => []

/-- An option that is spelled out, alone or with a value behind an equals sign. -/
def spelledOut? (cs : List Char) : Option Word :=
  let isLong := cs.take 2 = ['-', '-']
  match Flag.spellings.lookup (String.ofList cs) with
  | some f => some (.flag f isLong none)
  | none =>
    match splitEquals cs with
    | (start, some attached) =>
      (Flag.spellings.lookup (String.ofList start)).map fun f => .flag f isLong (some attached)
    | (_, none) => none

/-- Tells options from other words; a word that is short for several options is an error. -/
def classify (text : String) : Except ArgumentStop Word :=
  let cs := text.toList
  if cs.head? ≠ some '-' ∨ cs.length = 1 then .ok (.plain text)
  else
    match spelledOut? cs, candidates cs with
    | some w, _ => .ok w
    | none, [w] => .ok w
    | none, [] =>
      .ok (if isNegativeNumber cs || cs.contains ' ' then .plain text else .unknown)
    | none, _ => .error .usage

/-- Sorts all words.  After two hyphens there are no options. -/
def classifyAll : List String → Except ArgumentStop (List Word)
  | [] => .ok []
  | "--" :: rest => .ok (.separator :: rest.map .plain)
  | text :: rest => do return (← classify text) :: (← classifyAll rest)

end Word

namespace Arguments

/-- What the next plain word is for. -/
inductive Awaiting where
  | nothing
  | valueOf (flag : Flag)
  | suppressedIds
  deriving DecidableEq, Repr

/-- How far the words have been gone through. -/
structure Progress where
  arguments : Arguments := {}
  awaiting : Awaiting := .nothing
  /-- The dump file can still be named. -/
  canName : Bool := true
  /-- The last word named the dump file. -/
  justNamed : Bool := false
  /-- There was a word that nothing takes. -/
  leftOver : Bool := false

def outputFormat? : String → Option OutputFormat
  | "json" => some .json
  | "gcc" => some .gcc
  | "summary" => some .summary
  | _ => none

/-- The value of an option that stands behind an equals sign, `none` if it is empty. -/
def attachedValue (text : String) : Option String := if text = "--" then none else some text

/-- Gives an option its value.  The empty value means the summary as an output format, and no id to
suppress; a depth and a container keep it, to be refused or passed over with the settings. -/
def setValue (a : Arguments) (f : Flag) (value : Option String) : Except ArgumentStop Arguments :=
  match f, value with
  | .output, none => .ok { a with output := .summary }
  | .output, some text =>
    match outputFormat? text with
    | some output => .ok { a with output }
    | none => .error .usage
  | .maxDepth, none => .ok { a with maxDepth := some none }
  | .maxDepth, some text =>
    match Text.readInteger text with
    | .ok n => .ok { a with maxDepth := some (some n) }
    | .error _ => .error .usage
  | .container, name => .ok { a with containers := a.containers ++ [name] }
  | .suppress, id => .ok { a with suppress := a.suppress ++ id.toList }
  | _, _ => .error .usage

/-- Sets an option that takes no value. -/
def set (a : Arguments) (f : Flag) : Except ArgumentStop Arguments :=
  match f with
  | .help => .error .help
  | .listCheckers => .ok { a with listCheckers := true }
  | .verbose => .ok { a with verbosity := a.verbosity + 1 }
  | _ => .error .usage

/-- The options that stand together behind one hyphen, if all of them are options. -/
def shortFlags? (cs : List Char) : Option (List Flag) :=
  cs.mapM fun c => Flag.spellings.lookup (String.ofList ['-', c])

/-- Goes on to an option. -/
def Progress.takeFlag (p : Progress) (f : Flag) (isLong : Bool) (attached : Option String) :
    Except ArgumentStop Progress := do
  let p := { p with awaiting := .nothing, justNamed := false }
  match f.arity, attached with
  | .zero, none => return { p with arguments := ← p.arguments.set f }
  | .zero, some more =>
    if isLong || more.isEmpty then throw .usage
    match shortFlags? more.toList with
    | none => throw .usage
    | some flags => return { p with arguments := ← (f :: flags).foldlM set p.arguments }
  | .one, none => return { p with awaiting := .valueOf f }
  | .one, some text =>
    return { p with arguments := ← p.arguments.setValue f (attachedValue text) }
  | .many, none =>
    return { p with arguments := { p.arguments with suppress := [] }, awaiting := .suppressedIds }
  | .many, some text =>
    return { p with
      arguments := ← { p.arguments with suppress := [] }.setValue f (attachedValue text) }

/-- Goes on to a word that is no option. -/
def Progress.takePlain (p : Progress) (text : String) : Except ArgumentStop Progress := do
  match p.awaiting with
  | .valueOf f =>
    return { p with arguments := ← p.arguments.setValue f (some text), awaiting := .nothing }
  | .suppressedIds =>
    return { p with arguments := ← p.arguments.setValue .suppress (some text) }
  | .nothing =>
    if p.canName then
      return { p with
        arguments := { p.arguments with dumpFile := some text }
        canName := false
        justNamed := true }
    else return { p with leftOver := true, justNamed := false }

/-- Goes on to one word.  Two hyphens belong to the dump file, so they must stand next to where it
is or can be named. -/
def Progress.take (p : Progress) (w : Word) : Except ArgumentStop Progress :=
  match w with
  | .plain text => p.takePlain text
  | w =>
    match p.awaiting, w with
    | .valueOf _, _ => .error .usage
    | _, .flag f isLong attached => p.takeFlag f isLong attached
    | _, .separator =>
      .ok { p with
        awaiting := .nothing
        leftOver := p.leftOver || !(p.canName || p.justNamed)
        justNamed := false }
    | _, _ => .ok { p with awaiting := .nothing, leftOver := true, justNamed := false }

/-- Reads the arguments. -/
def parse (words : List String) : Except ArgumentStop Arguments := do
  let p ← (← Word.classifyAll words).foldlM Progress.take {}
  match p.awaiting with
  | .valueOf _ => throw .usage
  | _ => if p.leftOver then throw .usage else return p.arguments

end Arguments

end GrowthAudit
