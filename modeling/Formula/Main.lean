import Formula.Command

/-!
The program: runs the command line under the setting in the environment.
-/

def main (words : List String) : IO UInt32 := do
  let setting ← IO.getEnv Formula.Journal.limitVariable
  let report := Formula.Command.runWords setting words
  for line in report.lines do
    IO.println line
  return report.exit.toUInt32
