import GrowthAudit.Checker.Basic

/-!
# Scripted checkers

A checker that follows a script instead of looking at the configuration: it records given
statistics, shows the value of an option, reports given diagnostics, and fails where it is told to.
It serves to exercise whatever runs checkers.
-/

namespace GrowthAudit

/-- The phases in which a checker works: it reads its options, gathers evidence and reports. -/
inductive CheckerPhase where
  | configure
  | collect
  | diagnose
  deriving DecidableEq, Repr

structure Script where
  name : String
  description : String := ""
  ids : List String := []
  stats : Stats := []
  /-- The option to show, and the value to show where it is not given. -/
  shownOption : Option (String × Value) := none
  diagnostics : List Diagnostic := []
  failure : Option (CheckerPhase × Failure) := none

namespace Script

def failureIn? (s : Script) (phase : CheckerPhase) : Option Failure :=
  (s.failure.filter (·.1 == phase)).map (·.2)

/-- The diagnostic that shows the value of an option. -/
def optionDiagnostic (v : Value) : Diagnostic :=
  { id := "opt", message := v.toJson, severity := .performance, location := {} }

/-- What is shown of an option.  Options that are not given at all are an empty table. -/
def showOption (s : Script) (options : Value) : Except Failure (List Diagnostic) :=
  match s.shownOption with
  | none => .ok []
  | some (key, default) =>
    match options with
    | .table _ => .ok [optionDiagnostic ((options.get? key).getD default)]
    | _ => if options.isTruthy then .error .optionsNotTable else .ok [optionDiagnostic default]

def inspect (s : Script) (options : Value) : CheckerOutcome :=
  match (s.failureIn? .configure).or (s.failureIn? .collect) with
  | some failure => { result := .error failure }
  | none =>
    { stats := s.stats
      result :=
        match s.showOption options, s.failureIn? .diagnose with
        | .error failure, _ => .error failure
        | .ok _, some failure => .error failure
        | .ok shown, none => .ok (shown ++ s.diagnostics) }

def checker (s : Script) : Checker :=
  { name := s.name
    description := s.description
    ids := s.ids
    severity := .warning
    family := "Stub"
    inspect := fun options _ => s.inspect options }

end Script

end GrowthAudit
