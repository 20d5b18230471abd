import GrowthAudit.Failure
import GrowthAudit.Finding
import GrowthAudit.Text.Blank

/-!
# Settings

The settings of the container checker: how deep explanations go, and which containers are examined.
They are read from a table of options.  Options that are not given, or given as something empty,
leave the defaults; a single container may be given as a text, and of a table the keys are taken.
-/

namespace GrowthAudit

structure Settings where
  maxDepth : Int := CppType.defaultDepth
  containers : List String := [defaultContainer]
  deriving DecidableEq, Repr, Inhabited

namespace Settings

/-- The depth that an option gives.  A truth value is no integer here. -/
def depth : Value → Except Failure Int
  | .int n => if n < 1 then .error (.audit (.depthTooSmall n)) else .ok n
  | v => .error (.audit (.depthNotInteger v))

/-- The items of the option for containers. -/
def containerItems : Value → Except Failure (List Value)
  | .str s => .ok [.str s]
  | .list items => .ok items
  | .table entries => .ok (entries.map (.str ·.1))
  | _ => .error .containersNotList

/-- The name that an item stands for, without white space around it and without colons in front;
`none` for an item that is empty or blank. -/
def containerName? : Value → Except Failure (Option String)
  | .str s =>
    let name := Text.trim s.toList
    .ok (if name.isEmpty then none else some (Text.unrooted (String.ofList name)))
  | v => if v.isTruthy then .error .containerNotText else .ok none

/-- The names of the containers, at least one. -/
def containerNames (items : List Value) : Except Failure (List String) := do
  let names ← items.mapM containerName?
  match names.filterMap fun name => name with
  | [] => throw (.audit .noContainers)
  | names => return names

/-- Reads the settings from options. -/
def ofOptions (options : Value) : Except Failure Settings :=
  if !options.isTruthy then .ok {}
  else
    match options with
    | .table _ => do
      let maxDepth ← (options.get? "max_depth").elim (.ok CppType.defaultDepth) depth
      let containers ← (options.get? "containers").elim (.ok [defaultContainer])
        fun v => containerItems v >>= containerNames
      return ⟨maxDepth, containers⟩
    | _ => .error .optionsNotTable

end Settings

end GrowthAudit
