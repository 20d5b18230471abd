import GrowthAudit.Program

/-!
# The executable

Writes what `Program.run` answers to standard output and its log to standard error.  No reader of
dumps is built in.
-/

open GrowthAudit

def main (words : List String) : IO UInt32 := do
  match Program.run .missing words {} with
  | .ok result =>
    for record in result.log do
      IO.eprintln ("[" ++ record.level.word ++ "] " ++ record.message)
    IO.print result.output
    return result.exit.toNat.toUInt32
  | .error failure =>
    IO.eprintln (failure.message?.getD "")
    return 1
