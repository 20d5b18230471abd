import GrowthAudit.Checker.Registry
import GrowthAudit.Report
import GrowthAudit.Suppression

/-!
# Runs

A runner lets checkers loose on configurations.  It reads the suppressions of a configuration, which
stay in force for those that follow, selects the checkers by name or takes all that are enabled, and
drops the diagnostics that are suppressed.  A checker that gives up with an audit error is reported
by one diagnostic in place of its own, which nothing suppresses; any other failure stops the run.

What changes from run to run is the `Session`: the suppressions, and the clock that times the
checkers.  It goes on from where a run stopped, also if that was in the middle.
-/

namespace GrowthAudit

/-- The readings of a clock, in seconds.  The last one repeats for ever. -/
structure Clock where
  readings : List Number := []
  deriving Inhabited

def Clock.read (c : Clock) : Number × Clock :=
  match c.readings with
  | [] => (.int 0, c)
  | [t] => (t, c)
  | t :: rest => (t, ⟨rest⟩)

inductive LogLevel where
  | warning
  | error
  deriving DecidableEq, Repr

def LogLevel.word : LogLevel → String
  | warning => "WARNING"
  | error => "ERROR"

structure LogRecord where
  level : LogLevel
  message : String
  deriving DecidableEq, Repr

structure Session where
  suppressions : Suppressions := {}
  clock : Clock := {}
  deriving Inhabited

structure Runner where
  registry : Registry := .standard
  options : Value := .null

/-- What a run leaves: the report and the log. -/
structure RunResult where
  report : Report := {}
  log : List LogRecord := []
  deriving Inhabited

namespace Runner

/-- The checkers with the given names, and a warning for each name that is not registered. -/
def byNames (r : Runner) : List String → List Checker × List LogRecord
  | [] => ([], [])
  | name :: names =>
    let (checkers, log) := r.byNames names
    match r.registry.get? name with
    | some c => (c :: checkers, log)
    | none => (checkers, ⟨.warning, "unknown checker '" ++ name ++ "' ignored"⟩ :: log)

def select (r : Runner) : Option (List String) → List Checker × List LogRecord
  | none => (r.registry.enabled, [])
  | some names => r.byNames names

/-- The diagnostic in place of those of a checker that gave up. -/
def internalError (checker : String) (e : AuditError) : Diagnostic :=
  { id := "checkerInternalError"
    message := "Checker '" ++ checker ++ "' failed: " ++ e.text
    severity := .information
    location := {}
    checker }

/-- What is shown of what a checker answers, and the log of it. -/
def shown (suppressions : Suppressions) (checker : String) :
    Except Failure (List Diagnostic) → Except Failure (List Diagnostic × List LogRecord)
  | .ok ds => .ok (suppressions.filter ds, [])
  | .error (.audit e) =>
    .ok ([internalError checker e], [⟨.error, "checker '" ++ checker ++ "' failed: " ++ e.text⟩])
  | .error failure => .error failure

/-- The milliseconds between two readings. -/
def elapsed? (start finish : Number) : Option Number := do
  let seconds ← finish.sub? start
  return .float ((← seconds.toFloat?) * 1000.0)

/-- Lets checkers run one after the other.  The statistics are those that the checkers have recorded
for this configuration so far. -/
def runCheckers (options : Value) (c : Configuration) (suppressions : Suppressions) :
    List Checker → Stats → RunResult → Clock → Except Failure RunResult × Clock
  | [], _, result, clock => (.ok result, clock)
  | checker :: checkers, stats, result, clock =>
    let (start, clock) := clock.read
    let outcome := checker.inspect options c
    match shown suppressions checker.name outcome.result with
    | .error failure => (.error failure, clock)
    | .ok (ds, log) =>
      let (finish, clock) := clock.read
      match elapsed? start finish with
      | none => (.error .numberTooLarge, clock)
      | some elapsed =>
        let stats := Stats.update stats outcome.stats
        let report := result.report.addPass checker.name ds elapsed stats
        runCheckers options c suppressions checkers stats ⟨report, result.log ++ log⟩ clock

/-- Runs the selected checkers over one configuration. -/
def run (r : Runner) (c : Configuration) (checkers : Option (List String)) (s : Session) :
    Except Failure RunResult × Session :=
  match s.suppressions.load c.suppressions with
  | (suppressions, some failure) => (.error failure, { s with suppressions })
  | (suppressions, none) =>
    let (selected, log) := r.select checkers
    let (result, clock) := runCheckers r.options c suppressions selected [] { log } s.clock
    (result, ⟨suppressions, clock⟩)

/-- Runs the selected checkers over further configurations and joins the reports. -/
def runFrom (r : Runner) (checkers : Option (List String)) :
    List Configuration → RunResult → Session → Except Failure RunResult × Session
  | [], result, s => (.ok result, s)
  | c :: cs, result, s =>
    match r.run c checkers s with
    | (.error failure, s) => (.error failure, s)
    | (.ok part, s) =>
      match result.report.append? part.report with
      | .error failure => (.error failure, s)
      | .ok report => r.runFrom checkers cs ⟨report, result.log ++ part.log⟩ s

/-- Runs the selected checkers over all configurations. -/
def runAll (r : Runner) (cs : List Configuration) (checkers : Option (List String)) (s : Session) :
    Except Failure RunResult × Session :=
  r.runFrom checkers cs {} s

end Runner

end GrowthAudit
