import ChangelogParameters.CommandLine
import Std.Time.DateTime.Timestamp

/-!
# The program

Collects what a run of the program finds around it, and prints how the run ends.
-/

namespace ChangelogParameters.CommandLine

/-- The text of a file, if the file is there and is UTF-8 text. -/
def readText? (path : String) : IO (Option String) := do
  try return some (← IO.FS.readFile path) catch _ => return none

/-- The variables of the environment; none if the system does not list them. -/
def readEnvironment : IO (List (String × String)) := do
  let text ← readText? "/proc/self/environ"
  return ((Text.pieces '\x00' (text.getD "").toList).map String.ofList).filterMap environmentEntry?

/-- The time in milliseconds. -/
def clock : IO Nat := do
  return (← Std.Time.Timestamp.now).toMillisecondsSinceUnixEpoch.val.toNat

/-- The text of the defaults file that the arguments name. -/
def readDefaultsFile (arguments : List String) : IO (Option String) :=
  match Request.read arguments with
  | .ok (.query { defaultsFile := some path, .. } _) => readText? path
  | _ => pure none

/-- Runs the program with the given arguments. -/
def perform (arguments : List String) : IO UInt32 := do
  let text ← readDefaultsFile arguments
  let outcome := run
    { environment := ← readEnvironment
      text? := fun _ => text
      runId := deploymentIdAt (← clock) } arguments
  IO.print outcome.output
  IO.eprint outcome.report
  return outcome.status.toUInt32

end ChangelogParameters.CommandLine

/-- Runs the program. -/
def main (arguments : List String) : IO UInt32 :=
  ChangelogParameters.CommandLine.perform arguments
