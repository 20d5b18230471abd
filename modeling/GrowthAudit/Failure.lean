import GrowthAudit.Text.Integer
import GrowthAudit.Value.Display

/-!
# Failures

What can go wrong.  An `AuditError` is an answer of this library: invalid options, a dump that
cannot be loaded, or a checker that gives up.  Whoever runs checkers reports it and goes on.  A
`Failure` is anything that stops a run; besides audit errors these are values of the wrong sort in
places where nothing checks them, and the failures of checkers and loaders from elsewhere.
-/

namespace GrowthAudit

/-- Errors that are reported and not passed on. -/
inductive AuditError where
  | failed (message : String) (detail : Value)
  | badOption (option : String) (value : Value) (reason : String)
  | depthNotInteger (value : Value)
  | depthTooSmall (depth : Int)
  | noContainers
  | dumpNotLoaded (path reason : String)
  deriving Inhabited

namespace AuditError

def optionMessage (option reason : String) : String :=
  "invalid value for '" ++ option ++ "': " ++ reason

def message : AuditError → String
  | failed message _ => message
  | badOption option _ reason => optionMessage option reason
  | depthNotInteger _ => optionMessage "max_depth" "expected an integer"
  | depthTooSmall _ => optionMessage "max_depth" "must be at least 1"
  | noContainers => optionMessage "containers" "at least one container name is required"
  | dumpNotLoaded path reason => "cannot load dump file '" ++ path ++ "': " ++ reason

/-- The value that was refused, as the text shows it. -/
def detail? : AuditError → Option String
  | failed _ .null | badOption _ .null _ | depthNotInteger .null | dumpNotLoaded .. => none
  | failed _ detail => some detail.display
  | badOption _ value _ => some value.display
  | depthNotInteger value => some value.display
  | depthTooSmall depth => some (toString depth)
  | noContainers => some "()"

/-- The message with the refused value behind it. -/
def text (e : AuditError) : String :=
  match e.detail? with
  | none => e.message
  | some detail => e.message ++ " (" ++ detail ++ ")"

def id : AuditError → String
  | failed .. => "analyzerError"
  | badOption .. | depthNotInteger _ | depthTooSmall _ | noContainers => "badConfiguration"
  | dumpNotLoaded .. => "dumpLoadFailed"

end AuditError

/-- The sorts of failures that checkers and loaders from elsewhere know. -/
inductive ForeignFailure where
  | value
  | system
  | document
  | key
  deriving DecidableEq, Repr, Inhabited

/-- Whatever stops a run. -/
inductive Failure where
  | audit (e : AuditError)
  /-- The line of a suppression is a text that is no integer. -/
  | badLine (text : String) (fault : Text.IntegerFault)
  /-- The line of a suppression is infinite, undefined, or neither a number nor a text. -/
  | infiniteLine
  | undefinedLine
  | lineNotNumber
  /-- The options are neither empty nor a table. -/
  | optionsNotTable
  | containersNotList
  | containerNotText
  /-- A statistic that is to be added up, or shown as a time, is not a number. -/
  | statNotNumber
  | timeNotNumber (value : Value)
  /-- An integer that has to become a double lies beyond all of them. -/
  | numberTooLarge
  | foreign (sort : ForeignFailure) (message : String)
  deriving Inhabited

/-- The longest piece of a refused text that a message shows, quotes included. -/
def shownLength : Nat := 200

def badLineMessage (text : String) : Text.IntegerFault → String
  | .notANumber =>
    "invalid literal for int() with base 10: " ++
      String.ofList ((Text.quoteChars text.toList).take shownLength)
  | .tooLong digits =>
    "Exceeds the limit (" ++ toString Text.digitLimit ++
      " digits) for integer string conversion: value has " ++ toString digits ++
      " digits; use sys.set_int_max_str_digits() to increase the limit"

/-- The message of a failure, for those that have one. -/
def Failure.message? : Failure → Option String
  | audit e => some e.text
  | badLine text fault => some (badLineMessage text fault)
  | undefinedLine => some "cannot convert float NaN to integer"
  | timeNotNumber (.str _) => some "Unknown format code 'f' for object of type 'str'"
  | foreign _ message => some message
  | _ => none

end GrowthAudit
