import Relock.CommandLine
import Relock.Listing

/-!
# The program

Checks the files that standard input lists, as the command line says.
-/

namespace Relock

/-- The lines of a stream, without their ends. -/
partial def readLines (stream : IO.FS.Stream) (lines : List String) : IO (List String) := do
  let line ← stream.getLine
  if line.isEmpty then
    return lines.reverse
  else
    readLines stream (String.ofList (line.toList.filter (· != '\n')) :: lines)

/-- Print what a run prints, and give its status. -/
def report (outcome : Outcome) : IO UInt32 := do
  IO.print outcome.output
  outcome.errors.forM IO.eprintln
  return outcome.status.toUInt32

end Relock

/-- Run the checker on the listed files. -/
def main (args : List String) : IO UInt32 := do
  let lines ← Relock.readLines (← IO.getStdin) []
  match Relock.Listing.read lines with
  | some disk => Relock.report (Relock.runCommand args disk)
  | none => do
      IO.eprintln (Relock.commandName ++ ": the listing is malformed")
      return 2
