/-
The program: its arguments and the disk of the machine.
-/
import Screenwright.Command.Run

namespace Screenwright

/-- Whether an action comes to its end without an error. -/
def endsWell (action : IO Unit) : IO Bool := do
  try
    action
    return true
  catch _ => return false

/-- The disk of the machine. -/
def machineDisk : Disk IO where
  read path := do
    try
      return some (← IO.FS.readFile path)
    catch _ => return none
  makeFolders path := endsWell (IO.FS.createDirAll path)
  write path content := endsWell (IO.FS.writeFile path content)

end Screenwright

open Screenwright

/-- Does what the arguments ask for and says what came of it. -/
def main (args : List String) : IO UInt32 := do
  let report ← (Invocation.ofArgs args).perform machineDisk
  IO.print report.output
  IO.eprint report.log
  return report.code.toUInt32
