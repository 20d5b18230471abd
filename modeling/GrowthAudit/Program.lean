import GrowthAudit.Arguments
import GrowthAudit.Runner

/-!
# The program

The program loads a dump, runs the checkers over its configurations and writes the diagnostics.  It
ends with one of three codes: nothing was found, something was found, or the dump could not be
loaded or the options are invalid.

`Program.audit` is the program without its command line, `Program.run` the whole.  Everything it
does is in the result; only a failure that nobody expects has none.
-/

namespace GrowthAudit

inductive ExitCode where
  | clean
  | findings
  | unusable
  deriving DecidableEq, Repr, Inhabited

def ExitCode.toNat : ExitCode → Nat
  | clean => 0
  | findings => 1
  | unusable => 2

/-- What reads dumps: nothing where the reader is not installed. -/
inductive DumpReader where
  | missing
  | reader (read : String → Except Failure (List Configuration))

namespace DumpReader

/-- Loads a dump.  Failures that a reader is known to have become errors of the dump. -/
def load (r : DumpReader) (path : String) : Except Failure (List Configuration) :=
  match r with
  | missing => .error (.audit (.dumpNotLoaded path "cppcheckdata module not found"))
  | reader read =>
    match read path with
    | .error (.foreign .key message) => .error (.foreign .key message)
    | .error (.foreign _ message) => .error (.audit (.dumpNotLoaded path message))
    | result => result

/-- The dumps that are read in order to load one. -/
def readPaths (r : DumpReader) (path : String) : List String :=
  match r with
  | missing => []
  | reader _ => [path]

end DumpReader

/-- The least severe messages that are logged. -/
inductive Verbosity where
  | unset
  | warning
  | info
  | debug
  deriving DecidableEq, Repr, Inhabited

namespace Verbosity

def ofCount : Nat → Verbosity
  | 0 => warning
  | 1 => info
  | _ => debug

def word : Verbosity → String
  | unset => "NOTSET"
  | warning => "WARNING"
  | info => "INFO"
  | debug => "DEBUG"

end Verbosity

structure ProgramResult where
  exit : ExitCode
  output : String := ""
  log : List LogRecord := []
  loaded : List String := []
  verbosity : Verbosity := .unset
  deriving Inhabited

namespace Program

/-- The text of a report in a format. -/
def render (format : OutputFormat) (r : Report) : Except Failure String :=
  match format with
  | .json => .ok (String.join (r.diagnostics.map (·.jsonLine ++ "\n")))
  | .gcc => .ok (String.join (r.diagnostics.map (·.plainText ++ "\n")))
  | .summary => r.summary.map (· ++ "\n")

/-- The session of a run in which some ids are suppressed from the start. -/
def session (suppress : List String) (clock : Clock) : Session :=
  { suppressions := suppress.foldl (fun s id => s.add ⟨id, .everywhere⟩) {}, clock }

/-- The result where the options or the dump are no good. -/
def refuse (e : AuditError) (loaded : List String) : ProgramResult :=
  { exit := .unusable, log := [⟨.error, e.text⟩], loaded }

/-- The result of running the standard checkers over configurations. -/
def report (cs : List Configuration) (format : OutputFormat) (suppress : List String)
    (options : Value) (clock : Clock) : Except Failure ProgramResult := do
  let result ← (Runner.runAll { options } cs none (session suppress clock)).1
  let output ← render format result.report
  let exit := if result.report.findingCount = 0 then .clean else .findings
  return { exit, output, log := result.log }

/-- Loads a dump and writes what the standard checkers find in it. -/
def audit (reader : DumpReader) (path : String) (format : OutputFormat) (suppress : List String)
    (options : Value) (clock : Clock) : Except Failure ProgramResult :=
  match Settings.ofOptions options with
  | .error (.audit e) => .ok (refuse e [])
  | .error failure => .error failure
  | .ok _ =>
    match reader.load path with
    | .error (.audit e) => .ok (refuse e (reader.readPaths path))
    | .error failure => .error failure
    | .ok cs => do
      let result ← report cs format suppress options clock
      return { result with loaded := reader.readPaths path }

/-- The value of an option, the empty list if it is empty. -/
def optionValue (toValue : α → Value) (value : Option α) : Value := value.elim (.list []) toValue

/-- The options that the arguments give. -/
def options (a : Arguments) : Value :=
  .table ((a.maxDepth.map fun n => ("max_depth", optionValue .int n)).toList ++
    (if a.containers.isEmpty then []
     else [("containers", .list (a.containers.map (optionValue .str)))]))

/-- A text with spaces behind it up to the given width. -/
def padded (width : Nat) (s : String) : String :=
  s ++ String.ofList (List.replicate (width - s.length) ' ')

/-- The lines that describe a checker: its name and description, and its ids. -/
def listing (c : Checker) : String :=
  "  " ++ padded 25 c.name ++ " " ++ c.description ++ "\n" ++
    "  " ++ padded 25 "" ++ " IDs: " ++ ", ".intercalate c.sortedIds ++ "\n"

/-- The lines that describe all checkers of a registry. -/
def listAll (r : Registry) : String :=
  String.join ((r.names.filterMap r.get?).map listing)

/-- How the program is called, and what its options are. -/
def helpLines : List String :=
  ["usage: vector-pessimization [-h] [--output \x7bjson,gcc,summary\x7d]",
   "                            [--max-depth MAX_DEPTH] [--container NAME]",
   "                            [--suppress [SUPPRESS ...]] [--list-checkers] [-v]",
   "                            [dump_file]",
   "",
   "Report containers that copy instead of move on growth",
   "",
   "positional arguments:",
   "  dump_file             Path to .dump file",
   "",
   "options:",
   "  -h, --help            show this help message and exit",
   "  --output \x7bjson,gcc,summary\x7d",
   "                        Output format",
   "  --max-depth MAX_DEPTH",
   "                        Maximum causal chain length (default: 3)",
   "  --container NAME      Qualified container name to check (repeatable;",
   "                        default: std::vector)",
   "  --suppress [SUPPRESS ...]",
   "                        Error IDs to suppress",
   "  --list-checkers       List available checkers and exit",
   "  -v, --verbose         Increase log verbosity (-v info, -vv debug)"]

/-- What the program says when it is asked for help. -/
def helpText : String :=
  String.join (helpLines.map (· ++ "\n"))

/-- Runs the program with the given words on its command line. -/
def run (reader : DumpReader) (words : List String) (clock : Clock) :
    Except Failure ProgramResult :=
  match Arguments.parse words with
  | .error .usage => .ok { exit := .unusable }
  | .error .help => .ok { exit := .clean, output := helpText }
  | .ok a =>
    let verbosity := Verbosity.ofCount a.verbosity
    if a.listCheckers then .ok { exit := .clean, output := listAll .standard, verbosity }
    else if a.dumpFile.getD "" = "" then .ok { exit := .unusable, verbosity }
    else do
      let result ← audit reader (a.dumpFile.getD "") a.output a.suppress (options a) clock
      return { result with verbosity }

end Program

end GrowthAudit
